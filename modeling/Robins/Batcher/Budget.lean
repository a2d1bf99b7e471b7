import Robins.Batcher.Conservation
import Robins.Protocol.WireSize

/-!
# The size budget of a selection

Without compression `select` knows the size of the batch it is about to form before it has decoded
a message: it adds up what the messages would take in the bytes they came in, each with its tag
and its length.  The batch is made of the same envelopes written anew, without those that do not
decode.

## Why this is enough

Written anew, an envelope takes no more than it came in: the arriving bytes may pad their varints
and carry fields the schema does not know, while the writer does neither (`length_encodeEnvelope_le`
in `Protocol.WireSize`).  A shorter body has a delimiter that is no longer.  So a candidate within
the budget fits, and packing has nothing to split (`splits_eq_zero_of_pack`).

The one exception is a first message that alone is over the limit.  It is taken whatever its size,
lest it block the queue, and then it is the candidate; packing a single message does not split
either, it rejects it.  `uncompressed_never_splits` says this of every flush that a step plans.
-/

namespace Robins
namespace Batcher

open BatchStore Protocol

variable {codecs : Codecs} {config : BatcherConfig}

/-! ## What the loop has counted -/

/-- The room a run of messages takes by the bytes it came in. -/
def rawSize (codecs : Codecs) (candidate : List StoredMessage) : ℕ :=
  (candidate.map (entrySize codecs)).sum

theorem rawSize_cons (m : StoredMessage) (candidate : List StoredMessage) :
    rawSize codecs (m :: candidate) = entrySize codecs m + rawSize codecs candidate := by
  rw [rawSize, List.map_cons, List.sum_cons]
  rfl

variable (codecs) in
/-- The messages counted stay within the budget, except when there is but one. -/
theorem rawSize_take_selectLoop (hnone : config.compression = .none)
    (pending : List StoredMessage) (len size : ℕ)
    (hstart : len ≤ 1 ∨ size ≤ config.maxBatchSize) (hzero : len = 0 → size = 0) :
    ∃ k, (selectLoop codecs config pending len size).len = len + k ∧
      (len + k ≤ 1 ∨ size + rawSize codecs (pending.take k) ≤ config.maxBatchSize) := by
  induction pending generalizing len size with
  | nil => exact ⟨0, rfl, hstart⟩
  | cons m pending ih =>
    rw [selectLoop, if_pos hnone]
    split_ifs with hcount hfull
    · exact ⟨0, rfl, hstart⟩
    · exact ⟨0, rfl, hstart⟩
    · -- the message is counted: it is the first, or it still fits
      have hnext : len + 1 ≤ 1 ∨ size + entrySize codecs m ≤ config.maxBatchSize := by
        by_cases hlen : 0 < len
        · exact .inr (not_lt.mp fun hlt => hfull ⟨hlen, hlt⟩)
        · exact .inl (by omega)
      obtain ⟨k, hk, hbudget⟩ := ih (len + 1) (size + entrySize codecs m) hnext (by omega)
      refine ⟨k + 1, by omega, ?_⟩
      rw [List.take_succ_cons, rawSize_cons]
      omega

/-- **The candidate is within the budget, or a single message.**  The sum of what the messages
may take is kept within the bound while they are selected, and a message that exceeds it alone is
selected alone. -/
theorem rawSize_candidate_le (hnone : config.compression = .none)
    (pending : List StoredMessage) (now : Timestamp) :
    (select codecs config pending now).len ≤ 1 ∨
      rawSize codecs (pending.take (select codecs config pending now).len) ≤
        config.maxBatchSize := by
  obtain ⟨k, hk, hbudget⟩ := rawSize_take_selectLoop codecs hnone pending 0 0
    (.inl (Nat.zero_le 1)) (fun _ => rfl)
  rw [select_len_eq, hk, Nat.zero_add]
  omega

/-! ## The candidate written anew -/

/-- **Decoded and encoded again, a run takes no more than the bytes it came in.** -/
theorem length_encodeBatch_decodeCandidate_le (hprost : codecs.prost.FollowsWire)
    (candidate : List StoredMessage) :
    (encodeEnvelopeBatch codecs.prost
      ⟨(decodeCandidate codecs candidate).1.map Decoded.envelope⟩).length ≤
        rawSize codecs candidate := by
  rw [encodeEnvelopeBatch, hprost.encodeBatch_eq]
  induction candidate with
  | nil => exact Nat.zero_le _
  | cons m candidate ih =>
    have hentry : entrySize codecs m = entryLength m.envelope.length := by
      rw [entrySize, hprost.lengthDelimiterLen_eq, entryLength]
    rw [rawSize_cons, decodeCandidate]
    dsimp only
    cases hm : decodeEnvelope codecs.prost m.envelope with
    | ok envelope =>
      have hmono := entryLength_mono (length_encodeEnvelope_le hprost hm)
      dsimp only
      rw [List.map_cons, length_encodeBatch_cons]
      rw [hentry]
      exact Nat.add_le_add hmono ih
    | error err => exact ih.trans (Nat.le_add_left _ _)

/-! ## Packing does not split -/

theorem encode_eq_of_none (hnone : config.compression = .none) (messages : List Decoded) :
    encode codecs config messages =
      .ok ((encodeEnvelopeBatch codecs.prost ⟨messages.map Decoded.envelope⟩).length,
        encodeEnvelopeBatch codecs.prost ⟨messages.map Decoded.envelope⟩) := by
  rw [encode, hnone, Compression.compress]

/-- A run that fits is packed as it is. -/
theorem pack_of_fits (hnone : config.compression = .none) {messages : List Decoded}
    (hfits : (encodeEnvelopeBatch codecs.prost ⟨messages.map Decoded.envelope⟩).length ≤
      config.maxBatchSize) {packed : Packed}
    (h : pack codecs config messages = .ok packed) :
    packed.splits = 0 ∧ packed.rejected = [] := by
  unfold pack at h
  split at h
  · obtain rfl := Except.ok.inj h
    exact ⟨rfl, rfl⟩
  · rw [packInto, encode_eq_of_none hnone] at h
    dsimp only at h
    rw [if_pos hfits] at h
    obtain rfl := Except.ok.inj h
    exact ⟨rfl, rfl⟩

theorem splits_eq_zero_of_pack {messages : List Decoded} (hone : messages.length ≤ 1)
    {packed : Packed} (h : pack codecs config messages = .ok packed) : packed.splits = 0 := by
  unfold pack at h
  split at h
  · obtain rfl := Except.ok.inj h
    rfl
  · next hne =>
    have hlen : messages.length = 1 := by
      have := List.length_pos_of_ne_nil hne
      omega
    rw [packInto] at h
    split at h
    · exact absurd h (by simp)
    · rw [dif_pos hlen] at h
      split at h
      · obtain rfl := Except.ok.inj h
        rfl
      · obtain rfl := Except.ok.inj h
        rfl

variable (codecs) in
theorem length_decodeCandidate_le (candidate : List StoredMessage) :
    (decodeCandidate codecs candidate).1.length ≤ candidate.length := by
  have := (decodeCandidate_spec codecs candidate).sublist.length_le
  rwa [List.length_map, List.length_map] at this

/-- Decoding rejects nothing for its size. -/
theorem message_of_mem_decodeCandidate {candidate : List StoredMessage} {err : BatchError}
    (h : err ∈ (decodeCandidate codecs candidate).2) :
    ∃ message reason, err = .invalidEnvelope message reason := by
  induction candidate with
  | nil => exact absurd h (by simp [decodeCandidate])
  | cons m candidate ih =>
    rw [decodeCandidate] at h
    dsimp only at h
    split at h
    · exact ih h
    · rcases List.mem_cons.mp h with rfl | h
      · exact ⟨_, _, rfl⟩
      · exact ih h

/-- What is said of a flush: nothing was split, and a message rejected for its size was
selected alone. -/
structure Flush.Unsplit (flush : Flush) : Prop where
  splits_eq : flush.packed.splits = 0
  alone : ∀ message serialized payload max mode,
    BatchError.payloadTooLarge message serialized payload max mode ∈ flush.packed.rejected →
      flush.consumed = [message]

/-- A candidate of one message, or one that fits when written anew, is not split. -/
theorem unsplit_of_planFlush (hnone : config.compression = .none)
    {candidate : List StoredMessage} {reason : FlushReason} {flush : Flush}
    (hcandidate : candidate.length ≤ 1 ∨ (encodeEnvelopeBatch codecs.prost
      ⟨(decodeCandidate codecs candidate).1.map Decoded.envelope⟩).length ≤ config.maxBatchSize)
    (h : planFlush codecs config candidate reason = .ok (.flush flush)) : flush.Unsplit := by
  have hinvalid : ∀ message serialized payload max mode,
      BatchError.payloadTooLarge message serialized payload max mode ∉
        (decodeCandidate codecs candidate).2 := by
    intro message serialized payload max mode hmem
    obtain ⟨_, _, heq⟩ := message_of_mem_decodeCandidate hmem
    exact absurd heq (by simp)
  obtain ⟨flush', runs, heq, hcovers⟩ := planFlush_spec h
  obtain rfl := Plan.flush.inj heq
  unfold planFlush at h
  dsimp only at h
  split at h
  · exact absurd h (by simp)
  · next packed hpack =>
    obtain rfl := Plan.flush.inj (Except.ok.inj h)
    rcases hcandidate with hone | hfits
    · have hsplits := splits_eq_zero_of_pack
        ((length_decodeCandidate_le codecs candidate).trans hone) hpack
      refine ⟨hsplits, ?_⟩
      intro message serialized payload max mode hmem
      have hid : message ∈ rejectedIds (packed.rejected ++ (decodeCandidate codecs candidate).2) :=
        List.mem_filterMap.mpr ⟨_, hmem, rfl⟩
      have hconsumed := hcovers.perm.subset (List.mem_append_right _ hid)
      dsimp only at hconsumed ⊢
      rcases candidate with _ | ⟨m, _ | ⟨m', rest⟩⟩
      · exact absurd hconsumed (by simp)
      · obtain rfl := List.mem_singleton.mp hconsumed
        rfl
      · rw [List.length_cons, List.length_cons] at hone
        omega
    · obtain ⟨hsplits, hrejected⟩ := pack_of_fits hnone hfits hpack
      refine ⟨hsplits, ?_⟩
      intro message serialized payload max mode hmem
      dsimp only at hmem
      rw [hrejected, List.nil_append] at hmem
      exact absurd hmem (hinvalid _ _ _ _ _)

/-- **Without compression no split is ever needed.**  Written anew, the candidate fits or is
a single message; so no flush splits, and only a message selected alone is too large. -/
theorem uncompressed_never_splits (hprost : codecs.prost.FollowsWire)
    (config : BatcherConfig) (hnone : config.compression = .none)
    (pending : List StoredMessage) (now : Timestamp) :
    ((encodeEnvelopeBatch codecs.prost ⟨(decodeCandidate codecs
        (pending.take (select codecs config pending now).len)).1.map
          Decoded.envelope⟩).length ≤ config.maxBatchSize ∨
      (pending.take (select codecs config pending now).len).length = 1) ∧
    ∀ force flush, plan codecs config pending now force = .ok (.flush flush) →
      flush.Unsplit := by
  have hlen := select_len_le codecs config pending now
  have hcandidate : (pending.take (select codecs config pending now).len).length ≤ 1 ∨
      (encodeEnvelopeBatch codecs.prost ⟨(decodeCandidate codecs
        (pending.take (select codecs config pending now).len)).1.map
          Decoded.envelope⟩).length ≤ config.maxBatchSize := by
    rw [List.length_take_of_le hlen]
    exact (rawSize_candidate_le hnone pending now).imp_right
      (length_encodeBatch_decodeCandidate_le hprost _).trans
  refine ⟨?_, ?_⟩
  · rcases hcandidate with hone | hfits
    · rcases Nat.le_one_iff_eq_zero_or_eq_one.mp hone with hnil | hone
      · rw [List.length_eq_zero_iff.mp hnil, encodeEnvelopeBatch, hprost.encodeBatch_eq]
        exact .inl (Nat.zero_le _)
      · exact .inr hone
    · exact .inl hfits
  · intro force flush h
    obtain ⟨-, reason, hflush⟩ := planFlush_of_plan h
    exact unsplit_of_planFlush hnone hcandidate hflush

/-- Batches of at most eleven bytes. -/
def tightConfig : BatcherConfig := ⟨30, 11, 2, .none⟩

/-- Two envelopes with one field each, the length of the first padded to two bytes, and one
that is over the limit alone. -/
def paddedPending : List StoredMessage :=
  [⟨0, ⟨1⟩, [10, 0x81, 0, 7]⟩, ⟨1, ⟨1⟩, [10, 1, 9]⟩,
    ⟨2, ⟨1⟩, [10, 8, 1, 2, 3, 4, 5, 6, 7, 8]⟩]

theorem uncompressed_never_splits_padded :
    (select plainCodecs tightConfig paddedPending ⟨2⟩).len = 2 ∧
      (((encodeEnvelopeBatch plainCodecs.prost ⟨(decodeCandidate plainCodecs
          (paddedPending.take (select plainCodecs tightConfig paddedPending ⟨2⟩).len)).1.map
            Decoded.envelope⟩).length ≤ tightConfig.maxBatchSize ∨
        (paddedPending.take (select plainCodecs tightConfig paddedPending ⟨2⟩).len).length = 1) ∧
      ∀ force flush, plan plainCodecs tightConfig paddedPending ⟨2⟩ force = .ok (.flush flush) →
        flush.Unsplit) :=
  ⟨by decide +kernel,
    uncompressed_never_splits Wire.wire_followsWire tightConfig rfl paddedPending ⟨2⟩⟩

end Batcher
end Robins
