import Robins.BatchStore.Redb
import Mathlib.Tactic.Simps.Basic

/-!
# What the tables stand for

`Contents` is the store without bytes: the pending messages and ready batches as values, and the
next free sequence number and batch identifier.  Numbers not yet given out are not in use, and
that is part of the structure, so contents in which a number would be given out twice cannot be
written down.

## From bytes to values

`Tables.Holds` says that the bytes on disk are those of given contents: the entries of both tables
decode to the messages and batches, in the order of their keys, and the counters stand for the
next numbers.  A key of eight bytes cannot hold every natural number, so the relation comes with
the bounds under which a counter is what it says.

## Transactions

Each transaction of the store is then described by one theorem: on tables that hold contents it
succeeds, returns what the contents say, and leaves tables that hold the next contents.  A commit
is described in both directions, since it may also fail on tables that hold contents: by
`commitBatches_eq` one of pending messages succeeds, and by `holds_of_commitBatches` only such a
one does.

Everything above the store is proved about contents.
-/

namespace Robins
namespace BatchStore

open LittleEndian

/-! ## Contents -/

/-- The store as values. -/
structure Contents where
  pending : List StoredMessage
  ready : List StoredBatch
  nextSequence : ℕ
  nextBatchId : ℕ
  /-- Sequence numbers from `nextSequence` on are not in use. -/
  sequence_lt : ∀ m ∈ pending, m.sequence < nextSequence
  /-- Batch identifiers from `nextBatchId` on are not in use. -/
  id_lt : ∀ b ∈ ready, b.id < nextBatchId

namespace Contents

@[ext] theorem ext {c d : Contents} (hp : c.pending = d.pending) (hr : c.ready = d.ready)
    (hs : c.nextSequence = d.nextSequence) (hb : c.nextBatchId = d.nextBatchId) : c = d := by
  cases c
  cases d
  congr

/-- A store in which nothing has happened. -/
def fresh : Contents := ⟨[], [], 0, 0, by simp, by simp⟩

/-- A message arrives. -/
@[simps]
def push (c : Contents) (receivedAt : Timestamp) (envelope : Bytes) : Contents where
  pending := c.pending ++ [⟨c.nextSequence, receivedAt, envelope⟩]
  ready := c.ready
  nextSequence := c.nextSequence + 1
  nextBatchId := c.nextBatchId
  sequence_lt := by
    intro m hm
    rcases List.mem_append.mp hm with hm | hm
    · exact (c.sequence_lt m hm).trans (Nat.lt_succ_self _)
    · obtain rfl := List.mem_singleton.mp hm
      exact Nat.lt_succ_self _
  id_lt := c.id_lt

/-- Prepared batches with consecutive identifiers. -/
def stamp (createdAt : Timestamp) : ℕ → List PreparedBatch → List StoredBatch
  | _, [] => []
  | id, batch :: prepared =>
    ⟨id, createdAt, batch.messageCount, batch.payload⟩ :: stamp createdAt (id + 1) prepared

@[simp] theorem map_id_stamp (createdAt : Timestamp) (id : ℕ) (prepared : List PreparedBatch) :
    (stamp createdAt id prepared).map StoredBatch.id = List.range' id prepared.length := by
  induction prepared generalizing id with
  | nil => rfl
  | cons batch prepared ih =>
    rw [stamp, List.map_cons, ih, List.length_cons, List.range'_succ]

theorem id_mem_stamp {createdAt : Timestamp} {id : ℕ} {prepared : List PreparedBatch}
    {b : StoredBatch} (hb : b ∈ stamp createdAt id prepared) :
    id ≤ b.id ∧ b.id < id + prepared.length := by
  have hmem : b.id ∈ List.range' id prepared.length := by
    rw [← map_id_stamp createdAt]
    exact List.mem_map_of_mem hb
  rw [List.mem_range'_1] at hmem
  exact hmem

/-- Messages are consumed and the batches prepared from them become ready. -/
@[simps]
def commit (c : Contents) (createdAt : Timestamp) (consumed : List MessageId)
    (prepared : List PreparedBatch) : Contents where
  pending := c.pending.filter fun m => decide (m.sequence ∉ consumed)
  ready := c.ready ++ stamp createdAt c.nextBatchId prepared
  nextSequence := c.nextSequence
  nextBatchId := c.nextBatchId + prepared.length
  sequence_lt := fun m hm => c.sequence_lt m (List.mem_of_mem_filter hm)
  id_lt := by
    intro b hb
    rcases List.mem_append.mp hb with hb | hb
    · exact (c.id_lt b hb).trans_le (Nat.le_add_right _ _)
    · exact (id_mem_stamp hb).2

@[simps]
def confirm (c : Contents) (id : BatchId) : Contents where
  pending := c.pending
  ready := c.ready.filter fun b => decide (b.id ≠ id)
  nextSequence := c.nextSequence
  nextBatchId := c.nextBatchId
  sequence_lt := c.sequence_lt
  id_lt := fun b hb => c.id_lt b (List.mem_of_mem_filter hb)

end Contents

/-! ## Bytes and values -/

@[simp] theorem decodeMessage_encodeMessage (sequence : ℕ) (receivedAt : Timestamp)
    (envelope : Bytes) :
    decodeMessage sequence (encodeMessage receivedAt envelope) =
      .ok ⟨sequence, receivedAt, envelope⟩ := by
  have hlen : ¬ (encodeMessage receivedAt envelope).length < timestampLen := by
    rw [encodeMessage, List.length_append, length_leBytes, timestampLen]
    omega
  have hmillis : leNat (leBytes 8 receivedAt.asMillis.toNat) = receivedAt.asMillis.toNat :=
    leNat_leBytes_of_lt receivedAt.asMillis.toNat_lt
  have htake : (encodeMessage receivedAt envelope).take timestampLen =
      leBytes 8 receivedAt.asMillis.toNat := List.take_left' (length_leBytes 8 _)
  have hdrop : (encodeMessage receivedAt envelope).drop timestampLen = envelope :=
    List.drop_left' (length_leBytes 8 _)
  rw [decodeMessage, if_neg hlen, htake, hdrop, hmillis, UInt64.ofNat_toNat]

@[simp] theorem decodeBatch_encodeBatch (id : ℕ) (createdAt : Timestamp)
    (batch : PreparedBatch) :
    decodeBatch id (encodeBatch createdAt batch) =
      .ok ⟨id, createdAt, batch.messageCount, batch.payload⟩ := by
  have hheader : (leBytes 8 createdAt.asMillis.toNat ++
      leBytes 4 batch.messageCount.toNat).length = batchHeaderLen := by
    rw [List.length_append, length_leBytes, length_leBytes]
    rfl
  have hlen : ¬ (encodeBatch createdAt batch).length < batchHeaderLen := by
    rw [encodeBatch, List.length_append, hheader]
    omega
  have hmillis : leNat (leBytes 8 createdAt.asMillis.toNat) = createdAt.asMillis.toNat :=
    leNat_leBytes_of_lt createdAt.asMillis.toNat_lt
  have hcount : leNat (leBytes 4 batch.messageCount.toNat) = batch.messageCount.toNat :=
    leNat_leBytes_of_lt batch.messageCount.toNat_lt
  have htake : (encodeBatch createdAt batch).take batchHeaderLen =
      leBytes 8 createdAt.asMillis.toNat ++ leBytes 4 batch.messageCount.toNat :=
    List.take_left' hheader
  have hdrop : (encodeBatch createdAt batch).drop batchHeaderLen = batch.payload :=
    List.drop_left' hheader
  have htake' : (leBytes 8 createdAt.asMillis.toNat ++
      leBytes 4 batch.messageCount.toNat).take timestampLen =
      leBytes 8 createdAt.asMillis.toNat := List.take_left' (length_leBytes 8 _)
  have hdrop' : (leBytes 8 createdAt.asMillis.toNat ++
      leBytes 4 batch.messageCount.toNat).drop timestampLen =
      leBytes 4 batch.messageCount.toNat := List.drop_left' (length_leBytes 8 _)
  rw [decodeBatch, if_neg hlen]
  simp only [htake, hdrop, htake', hdrop', hmillis, hcount, UInt64.ofNat_toNat,
    UInt32.ofNat_toNat]

/-- The metadata keeps the given value for a counter. -/
def CounterIs (metadata : Metadata) (key : MetaKey) (n : ℕ) : Prop :=
  metadata key = some (leBytes 8 n) ∨ metadata key = none ∧ n = 0

theorem nextCounter_eq {metadata : Metadata} {key : MetaKey} {n : ℕ}
    (h : CounterIs metadata key n) (hn : n < 2 ^ 64) :
    nextCounter metadata key =
      .ok (n, Function.update metadata key (some (leBytes 8 (n + 1)))) := by
  unfold nextCounter
  rcases h with h | ⟨h, rfl⟩
  · have hval : leNat (leBytes 8 n) = n := leNat_leBytes_of_lt hn
    rw [h]
    dsimp only
    rw [if_pos (length_leBytes 8 n), hval]
  · rw [h]

theorem CounterIs.update_self (metadata : Metadata) (key : MetaKey) (n : ℕ) :
    CounterIs (Function.update metadata key (some (leBytes 8 n))) key n :=
  .inl (Function.update_self _ _ _)

theorem CounterIs.update_of_ne {metadata : Metadata} {key key' : MetaKey} {n : ℕ}
    (h : CounterIs metadata key n) (hne : key ≠ key') (value : Option Bytes) :
    CounterIs (Function.update metadata key' value) key n := by
  unfold CounterIs
  rw [Function.update_of_ne hne]
  exact h

/-- The bytes a pending message is stored as. -/
def StoredMessage.entry (m : StoredMessage) : ℕ × Bytes :=
  (m.sequence, encodeMessage m.receivedAt m.envelope)

/-- The bytes a ready batch is stored as. -/
def StoredBatch.entry (b : StoredBatch) : ℕ × Bytes :=
  (b.id, encodeBatch b.createdAt b.prepared)

/-- The tables store exactly these contents. -/
structure Tables.Holds (t : Tables) (c : Contents) : Prop where
  pending : t.pendingMessages.entries = c.pending.map StoredMessage.entry
  ready : t.readyBatches.entries = c.ready.map StoredBatch.entry
  nextSequence : CounterIs t.storeMetadata .nextSequence c.nextSequence
  nextBatchId : CounterIs t.storeMetadata .nextBatchId c.nextBatchId

theorem holds_create : Tables.create.Holds .fresh :=
  ⟨rfl, rfl, .inr ⟨rfl, rfl⟩, .inr ⟨rfl, rfl⟩⟩

section Reading

variable {t : Tables} {c : Contents}

/-- Ready batches come in ascending identifier order. -/
theorem Tables.Holds.ready_ascending (h : t.Holds c) :
    (c.ready.map StoredBatch.id).Pairwise (· < ·) := by
  have hsorted := t.readyBatches.sorted
  rw [h.ready, List.pairwise_map] at hsorted
  exact List.pairwise_map.mpr hsorted

theorem mapM_entry_eq {α β : Type} {decode : β → Except StoreError α} {entry : α → β}
    (hdecode : ∀ a, decode (entry a) = .ok a) (l : List α) :
    (l.map entry).mapM decode = .ok l := by
  induction l with
  | nil => rfl
  | cons a l ih =>
    rw [List.map_cons, List.mapM_cons, hdecode, ih]
    rfl

theorem pendingMessages_eq (h : t.Holds c) (limit : ℕ) :
    pendingMessages t limit = .ok (c.pending.take limit) := by
  rw [pendingMessages, h.pending, ← List.map_take]
  exact mapM_entry_eq (fun m => decodeMessage_encodeMessage _ _ _) _

theorem readyBatches_eq (h : t.Holds c) (limit : ℕ) :
    readyBatches t limit = .ok (c.ready.take limit) := by
  rw [readyBatches, h.ready, ← List.map_take]
  exact mapM_entry_eq (fun b => decodeBatch_encodeBatch _ _ _) _

theorem counts_eq (h : t.Holds c) : counts t = ⟨c.pending.length, c.ready.length⟩ := by
  rw [counts, h.pending, h.ready, List.length_map, List.length_map]

end Reading

/-! ## Transactions -/

section Writing

variable {t : Tables} {c : Contents}

theorem pushMessage_eq (h : t.Holds c) (hn : c.nextSequence < 2 ^ 64) (receivedAt : Timestamp)
    (envelope : Bytes) :
    ∃ t', pushMessage t receivedAt envelope = .ok (c.nextSequence, t') ∧
      t'.Holds (c.push receivedAt envelope) := by
  have hcounter := nextCounter_eq h.nextSequence hn
  have hkeys : ∀ p ∈ t.pendingMessages.entries, p.1 < c.nextSequence := by
    intro p hp
    rw [h.pending] at hp
    obtain ⟨m, hm, rfl⟩ := List.mem_map.mp hp
    exact c.sequence_lt m hm
  have happend := OrderedTable.entries_insert_of_forall_lt hkeys
    (encodeMessage receivedAt envelope)
  refine ⟨{ t with
    pendingMessages := t.pendingMessages.insert c.nextSequence (encodeMessage receivedAt envelope)
    storeMetadata := Function.update t.storeMetadata .nextSequence
      (some (leBytes 8 (c.nextSequence + 1))) }, ?_, ?_, h.ready,
    CounterIs.update_self _ _ _, h.nextBatchId.update_of_ne (by decide) _⟩
  · rw [pushMessage, hcounter]
  · rw [Contents.push, List.map_append, ← h.pending]
    exact happend

theorem removeConsumed_eq {pending : OrderedTable ℕ Bytes} {consumed : List MessageId}
    (hmem : ∀ id ∈ consumed, ∃ value, (id, value) ∈ pending.entries) (hnodup : consumed.Nodup) :
    ∃ pending', removeConsumed pending consumed = .ok pending' ∧
      pending'.entries = pending.entries.filter fun p => decide (p.1 ∉ consumed) := by
  induction consumed generalizing pending with
  | nil =>
    refine ⟨pending, rfl, ?_⟩
    simp
  | cons id consumed ih =>
    obtain ⟨hid, hrest⟩ := List.forall_mem_cons.mp hmem
    obtain ⟨value, hvalue⟩ := hid
    obtain ⟨hnot, hnodup⟩ := List.nodup_cons.mp hnodup
    have hrest' : ∀ id' ∈ consumed, ∃ v, (id', v) ∈ (pending.remove id).entries := by
      intro id' hid'
      obtain ⟨v, hv⟩ := hrest id' hid'
      refine ⟨v, OrderedTable.mem_entries_remove.mpr ⟨hv, ?_⟩⟩
      rintro rfl
      exact hnot hid'
    obtain ⟨pending', heq, hentries⟩ := ih hrest' hnodup
    refine ⟨pending', ?_, ?_⟩
    · rw [removeConsumed, OrderedTable.get?_eq_some_iff.mpr hvalue]
      exact heq
    · rw [hentries, OrderedTable.remove, List.filter_filter]
      refine List.filter_congr fun p _ => ?_
      simp [List.mem_cons, not_or, Bool.and_comm]

theorem insertBatches_eq (createdAt : Timestamp) {metadata : Metadata}
    {ready : OrderedTable ℕ Bytes} {prepared : List PreparedBatch} {n : ℕ}
    (hcounter : CounterIs metadata .nextBatchId n) (hkeys : ∀ p ∈ ready.entries, p.1 < n)
    (hn : n + prepared.length ≤ 2 ^ 64) :
    ∃ metadata' ready', insertBatches createdAt metadata ready prepared =
        .ok (List.range' n prepared.length, metadata', ready') ∧
      ready'.entries =
        ready.entries ++ (Contents.stamp createdAt n prepared).map StoredBatch.entry ∧
      CounterIs metadata' .nextBatchId (n + prepared.length) ∧
      metadata' .nextSequence = metadata .nextSequence := by
  induction prepared generalizing metadata ready n with
  | nil =>
    refine ⟨metadata, ready, rfl, ?_, hcounter, rfl⟩
    rw [Contents.stamp, List.map_nil, List.append_nil]
  | cons batch prepared ih =>
    rw [List.length_cons] at hn
    have hnext := nextCounter_eq hcounter (by omega)
    have hinsert := OrderedTable.entries_insert_of_forall_lt hkeys (encodeBatch createdAt batch)
    have hkeys' : ∀ p ∈ (ready.insert n (encodeBatch createdAt batch)).entries,
        p.1 < n + 1 := by
      intro p hp
      rw [hinsert] at hp
      rcases List.mem_append.mp hp with hp | hp
      · exact (hkeys p hp).trans (Nat.lt_succ_self _)
      · obtain rfl := List.mem_singleton.mp hp
        exact Nat.lt_succ_self _
    obtain ⟨metadata', ready', heq, hentries, hcounter', hother⟩ :=
      ih (CounterIs.update_self metadata .nextBatchId (n + 1)) hkeys' (by omega)
    refine ⟨metadata', ready', ?_, ?_, ?_, ?_⟩
    · rw [insertBatches, hnext]
      dsimp only
      rw [heq, List.length_cons, List.range'_succ]
    · rw [hentries, hinsert, Contents.stamp, List.map_cons, List.append_assoc,
        List.singleton_append]
      rfl
    · rw [List.length_cons, show n + (prepared.length + 1) = n + 1 + prepared.length by omega]
      exact hcounter'
    · rw [hother, Function.update_of_ne (by decide)]

theorem mem_of_removeConsumed {pending pending' : OrderedTable ℕ Bytes}
    {consumed : List MessageId} (h : removeConsumed pending consumed = .ok pending') :
    consumed.Nodup ∧ ∀ id ∈ consumed, ∃ value, (id, value) ∈ pending.entries := by
  induction consumed generalizing pending with
  | nil => exact ⟨List.nodup_nil, by simp⟩
  | cons id consumed ih =>
    rw [removeConsumed] at h
    split at h
    · exact absurd h (by simp)
    · next value hvalue =>
      obtain ⟨hnodup, hmem⟩ := ih h
      refine ⟨List.nodup_cons.mpr ⟨fun hid => ?_, hnodup⟩, fun id' hid' => ?_⟩
      · obtain ⟨v, hv⟩ := hmem id hid
        exact (OrderedTable.mem_entries_remove.mp hv).2 rfl
      · rcases List.mem_cons.mp hid' with rfl | hid'
        · exact ⟨value, OrderedTable.get?_eq_some_iff.mp hvalue⟩
        · obtain ⟨v, hv⟩ := hmem id' hid'
          exact ⟨v, (OrderedTable.mem_entries_remove.mp hv).1⟩

/-- **A commit of messages that are pending.**  It succeeds, gives the batches
the next identifiers in order, and moves the contents. -/
theorem commitBatches_eq (h : t.Holds c) (createdAt : Timestamp) {consumed : List MessageId}
    {prepared : List PreparedBatch} (hmem : consumed ⊆ c.pending.map StoredMessage.sequence)
    (hnodup : consumed.Nodup) (hn : c.nextBatchId + prepared.length ≤ 2 ^ 64) :
    ∃ t', commitBatches t createdAt consumed prepared =
        .ok (List.range' c.nextBatchId prepared.length, t') ∧
      t'.Holds (c.commit createdAt consumed prepared) := by
  have hstored : ∀ id ∈ consumed, ∃ value, (id, value) ∈ t.pendingMessages.entries := by
    intro id hid
    obtain ⟨m, hm, rfl⟩ := List.mem_map.mp (hmem hid)
    refine ⟨encodeMessage m.receivedAt m.envelope, ?_⟩
    rw [h.pending]
    exact List.mem_map_of_mem hm
  have hkeys : ∀ p ∈ t.readyBatches.entries, p.1 < c.nextBatchId := by
    intro p hp
    rw [h.ready] at hp
    obtain ⟨b, hb, rfl⟩ := List.mem_map.mp hp
    exact c.id_lt b hb
  obtain ⟨pending', hremove, hpending⟩ := removeConsumed_eq hstored hnodup
  obtain ⟨metadata', ready', hinsert, hready, hcounter, hother⟩ :=
    insertBatches_eq createdAt h.nextBatchId hkeys hn
  refine ⟨⟨pending', ready', metadata'⟩, ?_, ?_, ?_, ?_, hcounter⟩
  · rw [commitBatches, hremove]
    dsimp only
    rw [hinsert]
  · rw [hpending, h.pending, Contents.commit, List.filter_map]
    rfl
  · rw [hready, h.ready, Contents.commit, List.map_append]
  · unfold CounterIs
    dsimp only
    rw [hother]
    exact h.nextSequence

/-- A commit that succeeds was one of pending messages. -/
theorem holds_of_commitBatches (h : t.Holds c) {createdAt : Timestamp} {consumed : List MessageId}
    {prepared : List PreparedBatch} {ids : List BatchId} {t' : Tables}
    (hn : c.nextBatchId + prepared.length ≤ 2 ^ 64)
    (hcommit : commitBatches t createdAt consumed prepared = .ok (ids, t')) :
    ids = List.range' c.nextBatchId prepared.length ∧
      t'.Holds (c.commit createdAt consumed prepared) := by
  have hremove : ∃ pending', removeConsumed t.pendingMessages consumed = .ok pending' := by
    unfold commitBatches at hcommit
    split at hcommit
    · exact absurd hcommit (by simp)
    · next pending' hpending => exact ⟨pending', hpending⟩
  obtain ⟨pending', hremove⟩ := hremove
  obtain ⟨hnodup, hmem⟩ := mem_of_removeConsumed hremove
  have hsub : consumed ⊆ c.pending.map StoredMessage.sequence := by
    intro id hid
    obtain ⟨value, hvalue⟩ := hmem id hid
    rw [h.pending] at hvalue
    obtain ⟨m, hm, heq⟩ := List.mem_map.mp hvalue
    exact List.mem_map.mpr ⟨m, hm, congrArg Prod.fst heq⟩
  obtain ⟨t'', heq, hholds⟩ := commitBatches_eq h createdAt hsub hnodup hn
  rw [hcommit] at heq
  obtain ⟨rfl, rfl⟩ := Prod.mk.inj (Except.ok.inj heq)
  exact ⟨rfl, hholds⟩

theorem confirmBatch_holds (h : t.Holds c) (id : BatchId) :
    (confirmBatch t id).Holds (c.confirm id) := by
  refine ⟨h.pending, ?_, h.nextSequence, h.nextBatchId⟩
  have hfilter : (t.readyBatches.remove id).entries =
      (c.ready.map StoredBatch.entry).filter fun p => decide (p.1 ≠ id) := by
    rw [← h.ready]
    rfl
  rw [confirmBatch, hfilter, Contents.confirm, List.filter_map]
  rfl

end Writing

end BatchStore
end Robins
