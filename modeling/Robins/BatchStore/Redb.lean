import Robins.BatchStore.Model
import Robins.Lib.LittleEndian
import Robins.Lib.OrderedTable
import Mathlib.Data.List.Basic

/-!
# The batch store on disk

Three tables: pending messages and ready batches, each from a `u64` key to bytes, and the metadata
with the two counters and the payload format.  The tables are kept in the order of their keys, as
the database keeps them, and the operations read from the front.

Every operation is one transaction.  An operation that returns an error drops its transaction, so
it has no new tables to return; whoever called it goes on with the old ones.  Which calls inside a
transaction may fail, and that nothing of it remains then, is the subject of
`BatchStore.Transaction`.

Nothing in the tables says that their bytes decode.  That is established from the outside:
`Tables.Holds` relates the bytes to what they stand for, and every operation keeps it.
-/

namespace Robins
namespace BatchStore

open LittleEndian

/-! ## Tables -/

/-- Size of the timestamp prefix of stored values. -/
def timestampLen : ℕ := 8

/-- Size of the timestamp and message count prefix of a stored batch. -/
def batchHeaderLen : ℕ := timestampLen + 4

/-- What is kept in `store_metadata`: two counters, and the payload format. -/
inductive MetaKey where
  | nextSequence
  | nextBatchId
  | payloadSchema
  | payloadSchemaVersion
  | payloadEncoding
  | payloadCompression
  deriving DecidableEq, Repr

/-- The key under which it is stored. -/
def MetaKey.asStr : MetaKey → String
  | .nextSequence => "next_sequence"
  | .nextBatchId => "next_batch_id"
  | .payloadSchema => "payload_schema"
  | .payloadSchemaVersion => "payload_schema_version"
  | .payloadEncoding => "payload_encoding"
  | .payloadCompression => "payload_compression"

abbrev Metadata := MetaKey → Option Bytes

/-- The database file. -/
structure Tables where
  pendingMessages : OrderedTable ℕ Bytes
  readyBatches : OrderedTable ℕ Bytes
  storeMetadata : Metadata

/-- `RedbBatchStore::open` on a fresh file: the three tables, empty. -/
def Tables.create : Tables := ⟨OrderedTable.empty, OrderedTable.empty, fun _ => none⟩

/-! ## Values -/

/-- The current value of a counter, and the metadata with its successor.  Writing
eight bytes keeps the successor modulo `2 ^ 64`. -/
def nextCounter (metadata : Metadata) (key : MetaKey) : Except StoreError (ℕ × Metadata) :=
  match metadata key with
  | some value =>
    if value.length = 8 then
      .ok (leNat value, Function.update metadata key (some (leBytes 8 (leNat value + 1))))
    else
      .error (.corrupt ("counter " ++ key.asStr ++ " is not 8 bytes"))
  | none => .ok (0, Function.update metadata key (some (leBytes 8 1)))

def encodeMessage (receivedAt : Timestamp) (envelope : Bytes) : Bytes :=
  leBytes 8 receivedAt.asMillis.toNat ++ envelope

def decodeMessage (sequence : ℕ) (value : Bytes) : Except StoreError StoredMessage :=
  if value.length < timestampLen then
    .error (.corrupt ("pending message " ++ toString sequence ++ " is truncated"))
  else
    .ok ⟨sequence, ⟨UInt64.ofNat (leNat (value.take timestampLen))⟩, value.drop timestampLen⟩

def encodeBatch (createdAt : Timestamp) (batch : PreparedBatch) : Bytes :=
  leBytes 8 createdAt.asMillis.toNat ++ leBytes 4 batch.messageCount.toNat ++ batch.payload

def decodeBatch (id : ℕ) (value : Bytes) : Except StoreError StoredBatch :=
  if value.length < batchHeaderLen then
    .error (.corrupt ("ready batch " ++ toString id ++ " is truncated"))
  else
    let header := value.take batchHeaderLen
    .ok {
      id := id
      createdAt := ⟨UInt64.ofNat (leNat (header.take timestampLen))⟩
      messageCount := UInt32.ofNat (leNat (header.drop timestampLen))
      payload := value.drop batchHeaderLen }

/-! ## Operations -/

/-- Store a received envelope under the next sequence number. -/
def pushMessage (t : Tables) (receivedAt : Timestamp) (envelope : Bytes) :
    Except StoreError (MessageId × Tables) :=
  match nextCounter t.storeMetadata .nextSequence with
  | .error err => .error err
  | .ok (sequence, metadata) =>
    .ok (sequence, { t with
      pendingMessages := t.pendingMessages.insert sequence (encodeMessage receivedAt envelope)
      storeMetadata := metadata })

/-- The first `limit` pending messages, in sequence order. -/
def pendingMessages (t : Tables) (limit : ℕ) : Except StoreError (List StoredMessage) :=
  (t.pendingMessages.entries.take limit).mapM fun entry => decodeMessage entry.1 entry.2

/-- Remove messages one by one, giving up at the first that is not there. -/
def removeConsumed (pending : OrderedTable ℕ Bytes) :
    List MessageId → Except StoreError (OrderedTable ℕ Bytes)
  | [] => .ok pending
  | message :: consumed =>
    match pending.get? message with
    | none => .error (.notPending message)
    | some _ => removeConsumed (pending.remove message) consumed

/-- Insert prepared batches under fresh identifiers. -/
def insertBatches (createdAt : Timestamp) (metadata : Metadata) (ready : OrderedTable ℕ Bytes) :
    List PreparedBatch → Except StoreError (List BatchId × Metadata × OrderedTable ℕ Bytes)
  | [] => .ok ([], metadata, ready)
  | batch :: prepared =>
    match nextCounter metadata .nextBatchId with
    | .error err => .error err
    | .ok (id, metadata) =>
      match insertBatches createdAt metadata (ready.insert id (encodeBatch createdAt batch))
        prepared with
      | .error err => .error err
      | .ok (ids, rest) => .ok (id :: ids, rest)

/-- Consume messages and store the batches prepared from them, all or nothing. -/
def commitBatches (t : Tables) (createdAt : Timestamp) (consumed : List MessageId)
    (prepared : List PreparedBatch) : Except StoreError (List BatchId × Tables) :=
  match removeConsumed t.pendingMessages consumed with
  | .error err => .error err
  | .ok pending =>
    match insertBatches createdAt t.storeMetadata t.readyBatches prepared with
    | .error err => .error err
    | .ok (ids, metadata, ready) => .ok (ids, ⟨pending, ready, metadata⟩)

/-- The first `limit` ready batches, in identifier order. -/
def readyBatches (t : Tables) (limit : ℕ) : Except StoreError (List StoredBatch) :=
  (t.readyBatches.entries.take limit).mapM fun entry => decodeBatch entry.1 entry.2

/-- Forget a batch.  Confirming one that is not there is harmless. -/
def confirmBatch (t : Tables) (id : BatchId) : Tables :=
  { t with readyBatches := t.readyBatches.remove id }

/-- How many messages and batches are stored. -/
def counts (t : Tables) : StoreCounts :=
  ⟨t.pendingMessages.entries.length, t.readyBatches.entries.length⟩

end BatchStore
end Robins
