import Robins.BatchStore.Redb
import Robins.Lib.FaultyTransaction

/-!
# The transactions of a batching step

A step reads the pending messages in one transaction and commits its result in another.  Here both
are written call by call, with the calls of the database that may fail between them: opening a
table, every removal, every read and write of a counter, every insertion.  Which calls fail is a
list of answers, taken one by one (`StoreFaults`).

When no call fails they are `pendingMessages` and `commitBatches`; when one does, the transaction
gives up in the middle of its work, with messages removed and counters advanced in a copy that is
then dropped.  `commitBatchesOn_refines` has both: whatever the answers are, the code of a commit
does what `commitBatches` does, or fails, and with no answers left it is `commitBatches`.  So what
is proved of the transactions elsewhere, where they are single steps, holds of their code.

The general part, a transaction made of fallible calls on a copy that is kept or dropped, is
`FaultyTransaction`.
-/

namespace Robins
namespace BatchStore

open FaultyTransaction

/-- How the calls to come will go. -/
abbrev StoreFaults := Faults StoreError

/-! ## Reading -/

/-- Read and decode entries one by one. -/
def readEntries : StoreFaults → List (ℕ × Bytes) →
    Except StoreError (List StoredMessage × StoreFaults)
  | faults, [] => .ok ([], faults)
  | faults, (key, value) :: entries =>
    match call faults with
    | .error err => .error err
    | .ok faults =>
      match decodeMessage key value with
      | .error err => .error err
      | .ok m =>
        match readEntries faults entries with
        | .error err => .error err
        | .ok (ms, faults) => .ok (m :: ms, faults)

/-- `pending_messages`, call by call: begin, open the table, start at its front, read. -/
def pendingMessagesOn (faults : StoreFaults) (t : Tables) (limit : ℕ) :
    Except StoreError (List StoredMessage × StoreFaults) :=
  match call faults with
  | .error err => .error err
  | .ok faults =>
    match call faults with
    | .error err => .error err
    | .ok faults =>
      match call faults with
      | .error err => .error err
      | .ok faults => readEntries faults (t.pendingMessages.entries.take limit)

/-! ## Committing -/

/-- The removals of `commit_batches`. -/
def removeConsumedOn : StoreFaults → OrderedTable ℕ Bytes → List MessageId →
    Except StoreError (OrderedTable ℕ Bytes × StoreFaults)
  | faults, pending, [] => .ok (pending, faults)
  | faults, pending, message :: consumed =>
    match call faults with
    | .error err => .error err
    | .ok faults =>
      match pending.get? message with
      | none => .error (.notPending message)
      | some _ => removeConsumedOn faults (pending.remove message) consumed

/-- `next_counter`: read, then write the successor. -/
def nextCounterOn (faults : StoreFaults) (metadata : Metadata) (key : MetaKey) :
    Except StoreError (ℕ × Metadata × StoreFaults) :=
  match call faults with
  | .error err => .error err
  | .ok faults =>
    match nextCounter metadata key with
    | .error err => .error err
    | .ok (n, metadata) =>
      match call faults with
      | .error err => .error err
      | .ok faults => .ok (n, metadata, faults)

/-- The insertions of `commit_batches`. -/
def insertBatchesOn (createdAt : Timestamp) : StoreFaults → Metadata → OrderedTable ℕ Bytes →
    List PreparedBatch →
    Except StoreError (List BatchId × Metadata × OrderedTable ℕ Bytes × StoreFaults)
  | faults, metadata, ready, [] => .ok ([], metadata, ready, faults)
  | faults, metadata, ready, batch :: prepared =>
    match nextCounterOn faults metadata .nextBatchId with
    | .error err => .error err
    | .ok (id, metadata, faults) =>
      match call faults with
      | .error err => .error err
      | .ok faults =>
        match insertBatchesOn createdAt faults metadata
          (ready.insert id (encodeBatch createdAt batch)) prepared with
        | .error err => .error err
        | .ok (ids, rest) => .ok (id :: ids, rest)

/-- The code of `commit_batches` between begin and commit. -/
def commitBatchesOn (createdAt : Timestamp) (consumed : List MessageId)
    (prepared : List PreparedBatch) : Body Tables StoreError (List BatchId) :=
  fun faults t =>
    match call faults with
    | .error err => .error err
    | .ok faults =>
      match removeConsumedOn faults t.pendingMessages consumed with
      | .error err => .error err
      | .ok (pending, faults) =>
        match call faults with
        | .error err => .error err
        | .ok faults =>
          match call faults with
          | .error err => .error err
          | .ok faults =>
            match insertBatchesOn createdAt faults t.storeMetadata t.readyBatches prepared with
            | .error err => .error err
            | .ok (ids, metadata, ready, faults) => .ok (ids, faults, ⟨pending, ready, metadata⟩)

/-! ## They do what they are for -/

theorem readEntries_ok {faults faults' : StoreFaults} {entries : List (ℕ × Bytes)}
    {ms : List StoredMessage} (h : readEntries faults entries = .ok (ms, faults')) :
    entries.mapM (fun entry => decodeMessage entry.1 entry.2) = .ok ms := by
  induction entries generalizing faults faults' ms with
  | nil =>
    obtain ⟨rfl, -⟩ := Prod.mk.inj (Except.ok.inj h)
    rfl
  | cons entry entries ih =>
    obtain ⟨key, value⟩ := entry
    rw [readEntries] at h
    split at h
    · exact absurd h (by simp)
    · split at h
      · exact absurd h (by simp)
      · next m hm =>
        split at h
        · exact absurd h (by simp)
        · next ms' _ hrest =>
          obtain ⟨rfl, -⟩ := Prod.mk.inj (Except.ok.inj h)
          rw [List.mapM_cons, hm, ih hrest]
          rfl

theorem readEntries_nil (entries : List (ℕ × Bytes)) :
    readEntries [] entries =
      (entries.mapM fun entry => decodeMessage entry.1 entry.2).map fun ms => (ms, []) := by
  induction entries with
  | nil => rfl
  | cons entry entries ih =>
    obtain ⟨key, value⟩ := entry
    rw [readEntries, List.mapM_cons]
    simp only [call, ih]
    cases decodeMessage key value with
    | error err => rfl
    | ok m =>
      dsimp only
      cases entries.mapM fun entry => decodeMessage entry.1 entry.2 with
      | error err => rfl
      | ok ms => rfl

/-- **A read that ends well has read the pending messages.** -/
theorem pendingMessagesOn_ok {faults faults' : StoreFaults} {t : Tables} {limit : ℕ}
    {ms : List StoredMessage} (h : pendingMessagesOn faults t limit = .ok (ms, faults')) :
    pendingMessages t limit = .ok ms := by
  unfold pendingMessagesOn at h
  split at h
  · exact absurd h (by simp)
  · split at h
    · exact absurd h (by simp)
    · split at h
      · exact absurd h (by simp)
      · exact readEntries_ok h

theorem pendingMessagesOn_nil (t : Tables) (limit : ℕ) :
    pendingMessagesOn [] t limit = (pendingMessages t limit).map fun ms => (ms, []) :=
  readEntries_nil _

theorem removeConsumedOn_ok {faults faults' : StoreFaults} {pending pending' : OrderedTable ℕ Bytes}
    {consumed : List MessageId}
    (h : removeConsumedOn faults pending consumed = .ok (pending', faults')) :
    removeConsumed pending consumed = .ok pending' := by
  induction consumed generalizing faults pending with
  | nil =>
    obtain ⟨rfl, -⟩ := Prod.mk.inj (Except.ok.inj h)
    rfl
  | cons message consumed ih =>
    rw [removeConsumedOn] at h
    split at h
    · exact absurd h (by simp)
    · split at h
      · exact absurd h (by simp)
      · next hget =>
        rw [removeConsumed, hget]
        exact ih h

theorem removeConsumedOn_nil (pending : OrderedTable ℕ Bytes) (consumed : List MessageId) :
    removeConsumedOn [] pending consumed =
      (removeConsumed pending consumed).map fun pending => (pending, []) := by
  induction consumed generalizing pending with
  | nil => rfl
  | cons message consumed ih =>
    rw [removeConsumedOn, removeConsumed]
    simp only [call, ih]
    cases pending.get? message with
    | none => rfl
    | some value => rfl

theorem nextCounterOn_ok {faults faults' : StoreFaults} {metadata metadata' : Metadata}
    {key : MetaKey} {n : ℕ} (h : nextCounterOn faults metadata key = .ok (n, metadata', faults')) :
    nextCounter metadata key = .ok (n, metadata') := by
  unfold nextCounterOn at h
  split at h
  · exact absurd h (by simp)
  · split at h
    · exact absurd h (by simp)
    · next hnext =>
      split at h
      · exact absurd h (by simp)
      · obtain ⟨rfl, hrest⟩ := Prod.mk.inj (Except.ok.inj h)
        obtain ⟨rfl, -⟩ := Prod.mk.inj hrest
        exact hnext

theorem insertBatchesOn_ok {createdAt : Timestamp} {faults faults' : StoreFaults}
    {metadata metadata' : Metadata} {ready ready' : OrderedTable ℕ Bytes}
    {prepared : List PreparedBatch} {ids : List BatchId}
    (h : insertBatchesOn createdAt faults metadata ready prepared =
      .ok (ids, metadata', ready', faults')) :
    insertBatches createdAt metadata ready prepared = .ok (ids, metadata', ready') := by
  induction prepared generalizing faults metadata ready ids with
  | nil =>
    simp only [insertBatchesOn, Except.ok.injEq, Prod.mk.injEq] at h
    obtain ⟨rfl, rfl, rfl, -⟩ := h
    rfl
  | cons batch prepared ih =>
    rw [insertBatchesOn] at h
    split at h
    · exact absurd h (by simp)
    · next hnext =>
      split at h
      · exact absurd h (by simp)
      · split at h
        · exact absurd h (by simp)
        · next hrest =>
          simp only [Except.ok.injEq, Prod.mk.injEq] at h
          obtain ⟨rfl, rfl⟩ := h
          rw [insertBatches, nextCounterOn_ok hnext]
          dsimp only
          rw [ih hrest]

theorem insertBatchesOn_nil (createdAt : Timestamp) (metadata : Metadata)
    (ready : OrderedTable ℕ Bytes) (prepared : List PreparedBatch) :
    insertBatchesOn createdAt [] metadata ready prepared =
      (insertBatches createdAt metadata ready prepared).map fun p => (p.1, p.2.1, p.2.2, []) := by
  induction prepared generalizing metadata ready with
  | nil => rfl
  | cons batch prepared ih =>
    rw [insertBatchesOn, insertBatches, nextCounterOn]
    simp only [call]
    cases nextCounter metadata .nextBatchId with
    | error err => rfl
    | ok p =>
      simp only [ih]
      cases insertBatches createdAt p.2 (ready.insert p.1 (encodeBatch createdAt batch))
        prepared with
      | error err => rfl
      | ok q => rfl

/-- **The code of `commit_batches` commits batches**, as far as no call fails: it ends as
`commitBatches` does, or with the error of a call. -/
theorem commitBatchesOn_refines (createdAt : Timestamp) (consumed : List MessageId)
    (prepared : List PreparedBatch) :
    Refines (commitBatchesOn createdAt consumed prepared)
      (fun t => commitBatches t createdAt consumed prepared) where
  of_ok := by
    intro faults faults' t t' ids h
    unfold commitBatchesOn at h
    split at h
    · exact absurd h (by simp)
    · split at h
      · exact absurd h (by simp)
      · next hremove =>
        split at h
        · exact absurd h (by simp)
        · split at h
          · exact absurd h (by simp)
          · split at h
            · exact absurd h (by simp)
            · next hinsert =>
              simp only [Except.ok.injEq, Prod.mk.injEq] at h
              obtain ⟨rfl, -, rfl⟩ := h
              simp only [commitBatches, removeConsumedOn_ok hremove, insertBatchesOn_ok hinsert]
  faultless := by
    intro t
    simp only [commitBatchesOn, commitBatches, call, removeConsumedOn_nil]
    cases removeConsumed t.pendingMessages consumed with
    | error err => rfl
    | ok pending =>
      dsimp only [Except.map]
      rw [insertBatchesOn_nil]
      cases insertBatches createdAt t.storeMetadata t.readyBatches prepared with
      | error err => rfl
      | ok p => rfl

end BatchStore
end Robins
