import Robins.Basic

/-!
# The data of the batch store

Raw wire bytes and a few integers, as the store keeps and returns them.  A message is what
arrived, with the time it arrived at; a batch is the final payload with the number of messages in
it, and it gets its identifier only when it is committed.

Counters and identifiers are natural numbers here; the width `u64` appears where they are written,
in the eight bytes of a counter.
-/

namespace Robins
namespace BatchStore

/-- A wall-clock instant: milliseconds since the Unix epoch. -/
structure Timestamp where
  asMillis : UInt64
  deriving DecidableEq, Repr

/-- Time from `self` until `now`, zero when the wall clock went backwards. -/
def Timestamp.elapsedUntil (self now : Timestamp) : Duration :=
  now.asMillis.toNat - self.asMillis.toNat

/-- Identifier of a pending message: its sequence number. -/
abbrev MessageId := ℕ

abbrev BatchId := ℕ

/-- An authorized envelope waiting to be batched. -/
structure StoredMessage where
  sequence : MessageId
  receivedAt : Timestamp
  envelope : Bytes
  deriving DecidableEq, Repr

/-- A fully prepared batch that has no identifier yet. -/
structure PreparedBatch where
  messageCount : UInt32
  payload : Bytes
  deriving DecidableEq, Repr

/-- A persisted batch waiting for confirmation. -/
structure StoredBatch where
  id : BatchId
  createdAt : Timestamp
  messageCount : UInt32
  payload : Bytes
  deriving DecidableEq, Repr

def StoredBatch.prepared (b : StoredBatch) : PreparedBatch := ⟨b.messageCount, b.payload⟩

/-- Occupancy counters. -/
structure StoreCounts where
  pendingMessages : ℕ
  readyBatches : ℕ
  deriving DecidableEq, Repr

/-- The payload format batches are prepared with. -/
structure FormatDescriptor where
  /-- Protobuf message a payload decodes to. -/
  schema : String
  schemaVersion : UInt32
  encoding : String
  /-- Compression applied after serialization. -/
  compression : String
  deriving DecidableEq, Repr

/-- Errors of the store.  Those of the database and of the blocking task carry a text
from outside; the store's own code raises the others. -/
inductive StoreError where
  | database (reason : String)
  | corrupt (what : String)
  | notPending (message : MessageId)
  | task (reason : String)
  deriving DecidableEq, Repr

/-- The text of an error (its `Display`). -/
def StoreError.toText : StoreError → String
  | .database reason => "batch store database error: " ++ reason
  | .corrupt what => "batch store contains corrupt data: " ++ what
  | .notPending message => "message " ++ toString message ++ " is not pending"
  | .task reason => "batch store task failed: " ++ reason

end BatchStore
end Robins
