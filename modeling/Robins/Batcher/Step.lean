import Robins.Batcher.Pack
import Robins.BatchStore.Redb

/-!
# One step of the batcher

A step reads the pending messages in one transaction, decides what to flush, decodes and packs it
in memory, and commits the result in a second transaction.  `plan` is everything between the two
transactions; `step` is the whole, for the case that nothing else touches the store meanwhile.

## What a plan contains

A plan is about a prefix of the messages that were read: `select` counts messages from the front
until one more would be too much, and takes at least one.  Of that prefix a flush consumes all.
Each of its messages is decoded and packed, or it is rejected, either because it does not decode or
because it is too large alone; `Flush.Covers` says this, and that the batches are encodings of
runs of the messages that were decoded, in order.

`plan_cases` lists what a plan can be, with what is known of the messages in each case: none are
pending, or a prefix is flushed, or no trigger has fired.  The modules on conservation, deadlines
and draining go on from these facts and do not look into the loop again.
-/

namespace Robins
namespace Batcher

open BatchStore Protocol

inductive FlushReason where
  | count
  | size
  | age
  | shutdown
  deriving DecidableEq, Repr

/-- Metric label value. -/
def FlushReason.asStr : FlushReason → String
  | .count => "count"
  | .size => "size"
  | .age => "age"
  | .shutdown => "shutdown"

/-- How many leading pending messages form the next batch, and the trigger that
fired, if any. -/
structure Selection where
  len : ℕ
  reason : Option FlushReason
  deriving DecidableEq, Repr

section

variable (codecs : Codecs) (config : BatcherConfig)

/-- The bytes a message takes in an uncompressed batch, estimated from its wire
form: tag, length delimiter, body. -/
def entrySize (m : StoredMessage) : ℕ :=
  1 + codecs.prost.lengthDelimiterLen m.envelope.length + m.envelope.length

/-- The loop of `select`: count messages until one more would exceed the number
or, without compression, the size of a batch. -/
def selectLoop : List StoredMessage → ℕ → ℕ → Selection
  | [], len, _ => ⟨len, none⟩
  | m :: pending, len, size =>
    if len = config.maxMessages then
      ⟨len, some .count⟩
    else if config.compression = .none then
      if 0 < len ∧ config.maxBatchSize < size + entrySize codecs m then
        ⟨len, some .size⟩
      else
        selectLoop pending (len + 1) (size + entrySize codecs m)
    else
      selectLoop pending (len + 1) size

/-- Choose the next candidate batch, and whether to flush it now. -/
def select (pending : List StoredMessage) (now : Timestamp) : Selection :=
  let selection := selectLoop codecs config pending 0 0
  match selection.reason with
  | some _ => selection
  | none =>
    if selection.len = config.maxMessages then
      { selection with reason := some .count }
    else
      match pending.head? with
      | some oldest =>
        if config.maxBatchAge ≤ oldest.receivedAt.elapsedUntil now then
          { selection with reason := some .age }
        else
          selection
      | none => selection

/-- Decode the candidate: the messages that decode, and an error for each that
does not. -/
def decodeCandidate : List StoredMessage → List Decoded × List BatchError
  | [] => ([], [])
  | m :: candidate =>
    let (decoded, rejected) := decodeCandidate candidate
    match decodeEnvelope codecs.prost m.envelope with
    | .ok envelope => (⟨m.sequence, envelope⟩ :: decoded, rejected)
    | .error err => (decoded, .invalidEnvelope m.sequence err.toText :: rejected)

/-- What is to be committed: the consumed messages and the result of packing
them, with the rejections of undecodable messages last. -/
structure Flush where
  consumed : List MessageId
  packed : Packed
  reason : FlushReason
  deriving DecidableEq, Repr

/-- The batches of a flush, as they are handed to the store. -/
def Flush.prepared (flush : Flush) : List PreparedBatch := flush.packed.batches.map Prod.fst

/-- The decision of a step on the pending messages it has read. -/
inductive Plan where
  | idle
  | wait (remaining : Duration)
  | flush (flush : Flush)
  deriving DecidableEq, Repr

/-- Decode and pack the selected messages. -/
def planFlush (candidate : List StoredMessage) (reason : FlushReason) :
    Except BatchError Plan :=
  let (decoded, rejected) := decodeCandidate codecs candidate
  match pack codecs config decoded with
  | .error err => .error err
  | .ok packed =>
    .ok (.flush {
      consumed := candidate.map StoredMessage.sequence
      packed := { packed with rejected := packed.rejected ++ rejected }
      reason := reason })

/-- The part of a step between its two transactions. -/
def plan (pending : List StoredMessage) (now : Timestamp) (force : Bool) :
    Except BatchError Plan :=
  match pending with
  | [] => .ok .idle
  | oldest :: _ =>
    let selection := select codecs config pending now
    match selection.reason, force with
    | some reason, _ => planFlush codecs config (pending.take selection.len) reason
    | none, true => planFlush codecs config (pending.take selection.len) .shutdown
    | none, false =>
      .ok (.wait (config.maxBatchAge - oldest.receivedAt.elapsedUntil now))

/-- Outcome of a step. -/
inductive Step where
  | idle
  | wait (remaining : Duration)
  | flushed
  deriving DecidableEq, Repr

/-- Run one step against the store. -/
def step (t : Tables) (now createdAt : Timestamp) (force : Bool) :
    Except BatchError (Step × Tables) :=
  match pendingMessages t config.maxMessages with
  | .error err => .error (.store err)
  | .ok pending =>
    match plan codecs config pending now force with
    | .error err => .error err
    | .ok .idle => .ok (.idle, t)
    | .ok (.wait remaining) => .ok (.wait remaining, t)
    | .ok (.flush flush) =>
      match commitBatches t createdAt flush.consumed flush.prepared with
      | .error err => .error (.store err)
      | .ok (_, t) => .ok (.flushed, t)

/-- Flush every batch that is due at `now`, given the times at which the commits
happen; `none` when there are more steps than times. -/
def flushDue (now : Timestamp) :
    List Timestamp → Tables → Option (Except BatchError (Option Duration) × Tables)
  | [], _ => none
  | createdAt :: clock, t =>
    match step codecs config t now createdAt false with
    | .error err => some (.error err, t)
    | .ok (.flushed, t) => flushDue now clock t
    | .ok (.wait remaining, t) => some (.ok (some remaining), t)
    | .ok (.idle, t) => some (.ok none, t)

/-- Flush everything pending, given the times read by the steps and at the
commits. -/
def flushAll :
    List (Timestamp × Timestamp) → Tables → Option (Except BatchError Unit × Tables)
  | [], _ => none
  | (now, createdAt) :: clock, t =>
    match step codecs config t now createdAt true with
    | .error err => some (.error err, t)
    | .ok (.idle, t) => some (.ok (), t)
    | .ok (_, t) => flushAll clock t

end

/-! ## What a plan contains -/

variable {codecs : Codecs} {config : BatcherConfig}

variable (codecs config) in
theorem selectLoop_len_le (pending : List StoredMessage) (len size : ℕ) :
    (selectLoop codecs config pending len size).len ≤ len + pending.length := by
  induction pending generalizing len size with
  | nil => exact Nat.le_add_right _ _
  | cons m pending ih =>
    have hnext := ih (len + 1)
    rw [selectLoop, List.length_cons]
    split_ifs
    · exact Nat.le_add_right _ _
    · exact Nat.le_add_right _ _
    · have := hnext (size + entrySize codecs m)
      omega
    · have := hnext size
      omega

theorem select_len_eq (pending : List StoredMessage) (now : Timestamp) :
    (select codecs config pending now).len = (selectLoop codecs config pending 0 0).len := by
  unfold select
  dsimp only
  split
  · rfl
  · split
    · rfl
    · split
      · split <;> rfl
      · rfl

variable (codecs config) in
/-- The candidate is a prefix of the messages read. -/
theorem select_len_le (pending : List StoredMessage) (now : Timestamp) :
    (select codecs config pending now).len ≤ pending.length := by
  have := selectLoop_len_le codecs config pending 0 0
  rw [select_len_eq]
  omega

/-- Messages dropped for good, as opposed to failures that are retried. -/
def BatchError.IsRejection : BatchError → Prop
  | .payloadTooLarge _ _ _ _ _ => True
  | .invalidEnvelope _ _ => True
  | .compression _ => False
  | .store _ => False

/-- The messages a list of errors is about. -/
def rejectedIds (rejected : List BatchError) : List MessageId :=
  rejected.filterMap BatchError.message?

theorem rejectedIds_append (r r' : List BatchError) :
    rejectedIds (r ++ r') = rejectedIds r ++ rejectedIds r' :=
  List.filterMap_append

/-- What decoding a candidate gives. -/
structure DecodesTo (codecs : Codecs) (candidate : List StoredMessage) (decoded : List Decoded)
    (rejected : List BatchError) : Prop where
  sublist : (decoded.map Decoded.id).Sublist (candidate.map StoredMessage.sequence)
  perm : (decoded.map Decoded.id ++ rejectedIds rejected).Perm
    (candidate.map StoredMessage.sequence)
  decodes : ∀ d ∈ decoded, ∃ m ∈ candidate, m.sequence = d.id ∧
    decodeEnvelope codecs.prost m.envelope = .ok d.envelope
  isRejection : ∀ err ∈ rejected, err.IsRejection

variable (codecs) in
theorem decodeCandidate_spec (candidate : List StoredMessage) :
    DecodesTo codecs candidate (decodeCandidate codecs candidate).1
      (decodeCandidate codecs candidate).2 := by
  induction candidate with
  | nil => exact ⟨List.Sublist.refl [], List.Perm.refl [], by simp [decodeCandidate],
      by simp [decodeCandidate]⟩
  | cons m candidate ih =>
    have hdecodes : ∀ d ∈ (decodeCandidate codecs candidate).1, ∃ m' ∈ m :: candidate,
        m'.sequence = d.id ∧ decodeEnvelope codecs.prost m'.envelope = .ok d.envelope := by
      intro d hd
      obtain ⟨m', hm', h⟩ := ih.decodes d hd
      exact ⟨m', List.mem_cons_of_mem m hm', h⟩
    rw [decodeCandidate]
    dsimp only
    cases hm : decodeEnvelope codecs.prost m.envelope with
    | ok envelope =>
      refine ⟨ih.sublist.cons_cons m.sequence, ih.perm.cons m.sequence, ?_, ih.isRejection⟩
      intro d hd
      rcases List.mem_cons.mp hd with rfl | hd
      · exact ⟨m, List.mem_cons_self, rfl, hm⟩
      · exact hdecodes d hd
    | error err =>
      refine ⟨ih.sublist.cons m.sequence, ?_, hdecodes, ?_⟩
      · exact List.perm_middle.trans (ih.perm.cons m.sequence)
      · intro err' herr'
        rcases List.mem_cons.mp herr' with rfl | herr'
        · trivial
        · exact ih.isRejection err' herr'

/-- What a flush does with the first `n` of the messages read: the runs that
became its batches and the messages it rejects make up what it consumes. -/
structure Flush.Covers (codecs : Codecs) (config : BatcherConfig)
    (candidate : List StoredMessage) (flush : Flush) (runs : List (List Decoded)) : Prop where
  consumed_eq : flush.consumed = candidate.map StoredMessage.sequence
  sublist : (runs.map (List.map Decoded.id)).flatten.Sublist flush.consumed
  perm : ((runs.map (List.map Decoded.id)).flatten ++ rejectedIds flush.packed.rejected).Perm
    flush.consumed
  encodes : List.Forall₂ (Encodes codecs config) runs flush.packed.batches
  decodes : ∀ run ∈ runs, ∀ d ∈ run, ∃ m ∈ candidate, m.sequence = d.id ∧
    decodeEnvelope codecs.prost m.envelope = .ok d.envelope
  isRejection : ∀ err ∈ flush.packed.rejected, err.IsRejection

theorem rejectedIds_of_tooLarge {left : List Decoded} {rejected : List BatchError}
    (h : List.Forall₂ (TooLarge codecs config) left rejected) :
    rejectedIds rejected = left.map Decoded.id ∧ ∀ err ∈ rejected, err.IsRejection := by
  induction h with
  | nil => exact ⟨rfl, by simp⟩
  | cons hd _ ih =>
    obtain ⟨serialized, payload, -, -, rfl⟩ := hd
    refine ⟨?_, ?_⟩
    · rw [List.map_cons, ← ih.1]
      rfl
    · intro err herr
      rcases List.mem_cons.mp herr with rfl | herr
      · trivial
      · exact ih.2 err herr

/-- **A flush accounts for its candidate**: each of its messages is in one of the batches or
rejected, and each consumed exactly once. -/
theorem planFlush_spec {candidate : List StoredMessage} {reason : FlushReason} {p : Plan}
    (h : planFlush codecs config candidate reason = .ok p) :
    ∃ flush runs, p = .flush flush ∧ flush.Covers codecs config candidate runs := by
  have hdec := decodeCandidate_spec codecs candidate
  unfold planFlush at h
  dsimp only at h
  split at h
  · exact absurd h (by simp)
  · next packed hpack =>
    obtain ⟨runs, left, hsieve, hencodes, hlarge⟩ := pack_spec hpack
    obtain ⟨hids, hrej⟩ := rejectedIds_of_tooLarge hlarge
    have hmap := hsieve.map Decoded.id
    refine ⟨_, runs, (Except.ok.inj h).symm, rfl, ?_, ?_, hencodes, ?_, ?_⟩
    · exact hmap.flatten_sublist.trans hdec.sublist
    · rw [rejectedIds_append, hids, ← List.append_assoc]
      exact (hmap.perm.append_right _).trans hdec.perm
    · intro run hrun d hd
      refine hdec.decodes d (hsieve.flatten_sublist.subset ?_)
      exact List.mem_flatten.mpr ⟨run, hrun, hd⟩
    · intro err herr
      rcases List.mem_append.mp herr with herr | herr
      · exact hrej err herr
      · exact hdec.isRejection err herr

/-- What a plan can be: nothing is pending, or something is flushed, or no trigger has fired and
the oldest message is waited for. -/
theorem plan_cases {pending : List StoredMessage} {now : Timestamp} {force : Bool} {p : Plan}
    (h : plan codecs config pending now force = .ok p) :
    pending = [] ∧ p = .idle ∨ (∃ flush, p = .flush flush) ∨
      ∃ oldest rest, pending = oldest :: rest ∧ force = false ∧
        (select codecs config pending now).reason = none ∧
        p = .wait (config.maxBatchAge - oldest.receivedAt.elapsedUntil now) := by
  unfold plan at h
  split at h
  · exact .inl ⟨rfl, (Except.ok.inj h).symm⟩
  · next oldest rest =>
    dsimp only at h
    split at h
    · obtain ⟨flush, runs, rfl, -⟩ := planFlush_spec h
      exact .inr (.inl ⟨flush, rfl⟩)
    · obtain ⟨flush, runs, rfl, -⟩ := planFlush_spec h
      exact .inr (.inl ⟨flush, rfl⟩)
    · next hreason =>
      exact .inr (.inr ⟨oldest, rest, rfl, rfl, hreason, (Except.ok.inj h).symm⟩)

/-- A plan to flush comes from packing the messages selected. -/
theorem planFlush_of_plan {pending : List StoredMessage} {now : Timestamp} {force : Bool}
    {flush : Flush} (h : plan codecs config pending now force = .ok (.flush flush)) :
    pending ≠ [] ∧ ∃ reason, planFlush codecs config
      (pending.take (select codecs config pending now).len) reason = .ok (.flush flush) := by
  unfold plan at h
  split at h
  · exact absurd h (by simp)
  · refine ⟨by simp, ?_⟩
    dsimp only at h
    split at h
    · exact ⟨_, h⟩
    · exact ⟨_, h⟩
    · exact absurd h (by simp)

/-- A plan to flush covers a prefix of the messages read. -/
theorem plan_eq_flush {pending : List StoredMessage} {now : Timestamp} {force : Bool}
    {flush : Flush} (h : plan codecs config pending now force = .ok (.flush flush)) :
    ∃ n runs, n ≤ pending.length ∧ flush.Covers codecs config (pending.take n) runs := by
  obtain ⟨-, reason, hplan⟩ := planFlush_of_plan h
  obtain ⟨flush', runs, heq, hcovers⟩ := planFlush_spec hplan
  obtain rfl := Plan.flush.inj heq
  exact ⟨_, runs, select_len_le codecs config pending now, hcovers⟩

end Batcher
end Robins
