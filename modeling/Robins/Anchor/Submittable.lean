import Robins.Anchor.Model
import Robins.Batcher.Conservation
import Robins.BatchStore.Format

/-!
# Packing, and what the anchor accepts

A list of messages is packed into batches by halving: what does not fit into one batch is divided
and each half is packed by itself, down to single messages, and one that does not fit alone is
rejected.

## Packing

Whatever the compressor does, the result is a partition of the list, in order, into encoded runs
that fit and rejected messages that do not fit alone (`exists_packsInOrder`).  That a fitting
message may be rejected is impossible for any compressor; that a rejected one is too large alone
is what `RejectsTooLarge` records.  Without compression a run takes at least the space of each of
its messages (`BatchOf.aloneSize_le`), so there the messages left out are exactly those that do
not fit alone (`PacksInOrder.left_eq`).  With compression even a run whose parts fit may be too
large, which is why nothing more can be said of the number of batches here.

## The size guard of the anchor

The anchor refuses a stored batch that is larger than the chain takes.  The limit of a
configuration that passed its checks is within that limit, so a batch that was packed under it is
never refused (`Anchor.refuse_eq_none`), and by `not_refused_of_step` neither is any batch among
the ready ones that a step has added.
-/

namespace Robins
namespace Anchor

open BatchStore Protocol Batcher

set_option linter.dupNamespace false

/-! ## Packing -/

/-- The payload of a message alone is too big. -/
def ExceedsAlone (codecs : Codecs) (config : BatcherConfig) (m : Decoded) : Prop :=
  ∃ payload, config.compression.compress codecs.zstd
    (encodeEnvelopeBatch codecs.prost ⟨[m.envelope]⟩) = .ok payload ∧
    config.maxBatchSize < payload.length

/-- A batch for a run of messages. -/
structure BatchOf (codecs : Codecs) (config : BatcherConfig) (run : List Decoded)
    (batch : PreparedBatch × ℕ) : Prop where
  nonempty : run ≠ []
  size : batch.1.payload.length ≤ config.maxBatchSize
  payload : config.compression.compress codecs.zstd
    (encodeEnvelopeBatch codecs.prost ⟨run.map Decoded.envelope⟩) = .ok batch.1.payload
  count : batch.1.messageCount.toNat = run.length

/-- The error rejects this message, and the message does not fit alone. -/
def RejectsTooLarge (codecs : Codecs) (config : BatcherConfig) (m : Decoded)
    (error : BatchError) : Prop :=
  ExceedsAlone codecs config m ∧ ∃ serialized payload,
    error = .payloadTooLarge m.id serialized payload config.maxBatchSize config.compression

/-- The runs of the batches and the rejected messages partition the messages, in order. -/
structure PacksInOrder (codecs : Codecs) (config : BatcherConfig) (messages : List Decoded)
    (packed : Packed) (runs : List (List Decoded)) (left : List Decoded) : Prop where
  partition : Sieve messages runs left
  batches : List.Forall₂ (BatchOf codecs config) runs packed.batches
  rejected : List.Forall₂ (RejectsTooLarge codecs config) left packed.rejected

section

variable {codecs : Codecs} {config : BatcherConfig}

theorem encode_eq_ok_iff {run : List Decoded} {serialized : ℕ} {payload : Bytes} :
    encode codecs config run = .ok (serialized, payload) ↔
      config.compression.compress codecs.zstd
        (encodeEnvelopeBatch codecs.prost ⟨run.map Decoded.envelope⟩) = .ok payload ∧
      serialized = (encodeEnvelopeBatch codecs.prost ⟨run.map Decoded.envelope⟩).length := by
  unfold encode
  dsimp only
  split
  · next reason hcompress => simp [hcompress]
  · next payload' hcompress => simp [hcompress, eq_comm, and_comm]

theorem Encodes.batchOf {run : List Decoded} {batch : PreparedBatch × ℕ}
    (h : Encodes codecs config run batch) (hsmall : run.length < 2 ^ 32) :
    BatchOf codecs config run batch where
  nonempty := h.run_ne_nil
  size := h.size_le
  payload := (encode_eq_ok_iff.mp h.encode_eq).1
  count := by rw [h.messageCount_eq, UInt32.toNat_ofNat_of_lt' hsmall]

theorem TooLarge.rejects {m : Decoded} {error : BatchError}
    (h : TooLarge codecs config m error) : RejectsTooLarge codecs config m error := by
  obtain ⟨serialized, payload, hencode, hsize, rfl⟩ := h
  exact ⟨⟨payload, (encode_eq_ok_iff.mp hencode).1, hsize⟩, serialized, payload.length, rfl⟩

theorem batchesOf_of_encodes {runs : List (List Decoded)} {batches : List (PreparedBatch × ℕ)}
    (h : List.Forall₂ (Encodes codecs config) runs batches)
    (hsmall : ∀ run ∈ runs, run.length < 2 ^ 32) :
    List.Forall₂ (BatchOf codecs config) runs batches := by
  induction h with
  | nil => exact .nil
  | cons hencodes _ ih =>
    obtain ⟨hhead, htail⟩ := List.forall_mem_cons.mp hsmall
    exact .cons (Encodes.batchOf hencodes hhead) (ih htail)

/-- **Packing partitions the messages**, whatever the compressor does: encoded runs that fit and
messages left out, in the order of the list. -/
theorem exists_packsInOrder (htotal : codecs.zstd.Total) {messages : List Decoded}
    (hsmall : messages.length < 2 ^ 32) :
    ∃ packed runs left, pack codecs config messages = .ok packed ∧
      PacksInOrder codecs config messages packed runs left := by
  obtain ⟨packed, hpack⟩ := exists_pack codecs config htotal messages
  obtain ⟨runs, left, hsieve, hencodes, hlarge⟩ := pack_spec hpack
  have hshort : ∀ run ∈ runs, run.length < 2 ^ 32 := by
    intro run hrun
    have hle := (List.sublist_flatten_of_mem hrun).length_le
    have hflat := hsieve.flatten_sublist.length_le
    omega
  exact ⟨packed, runs, left, hpack, hsieve, batchesOf_of_encodes hencodes hshort,
    hlarge.imp fun _ _ h => TooLarge.rejects h⟩

/-- The size of a message alone, before compression. -/
def aloneSize (codecs : Codecs) (m : Decoded) : ℕ :=
  (encodeEnvelopeBatch codecs.prost ⟨[m.envelope]⟩).length

/-- What fits together, uncompressed, fits alone. -/
theorem BatchOf.aloneSize_le (hconcat : codecs.prost.Concatenates)
    (hplain : config.compression = .none) {run : List Decoded} {batch : PreparedBatch × ℕ}
    (h : BatchOf codecs config run batch) {m : Decoded} (hm : m ∈ run) :
    aloneSize codecs m ≤ config.maxBatchSize := by
  have hpayload := h.payload
  rw [hplain] at hpayload
  have hserialized := Except.ok.inj hpayload
  have hsize := h.size
  rw [← hserialized] at hsize
  exact (hconcat.length_le (List.mem_map_of_mem hm)).trans hsize

/-- Without compression exactly the messages that do not fit alone are left. -/
theorem PacksInOrder.left_eq (hconcat : codecs.prost.Concatenates)
    (hplain : config.compression = .none) {messages : List Decoded} {packed : Packed}
    {runs : List (List Decoded)} {left : List Decoded}
    (h : PacksInOrder codecs config messages packed runs left) :
    left = messages.filter fun m => decide (config.maxBatchSize < aloneSize codecs m) := by
  refine h.partition.left_eq_filter ?_ ?_
  · intro run hrun m hm
    obtain ⟨i, hi, rfl⟩ := List.mem_iff_getElem.mp hrun
    have hbatch := h.batches.get hi (h.batches.length_eq ▸ hi)
    have hle := hbatch.aloneSize_le hconcat hplain hm
    exact decide_eq_false (by omega)
  · intro m hm
    obtain ⟨i, hi, rfl⟩ := List.mem_iff_getElem.mp hm
    obtain ⟨⟨payload, hpayload, hlt⟩, -⟩ := h.rejected.get hi (h.rejected.length_eq ▸ hi)
    rw [hplain] at hpayload
    obtain rfl := Except.ok.inj hpayload
    exact decide_eq_true hlt

end

/-! ## The size guard of the anchor -/

theorem BatcherConfig.Valid.maxBatchSize_le {config : BatcherConfig} (h : config.Valid) :
    config.maxBatchSize ≤ maxPayloadSize := by
  unfold BatcherConfig.Valid BatcherConfig.validate at h
  split_ifs at h
  omega

theorem Anchor.refuse_eq_none {anchor : Anchor} {batch : StoredBatch}
    (h : batch.payload.length ≤ anchor.maxPayload) : anchor.refuse batch = none := by
  unfold Anchor.refuse
  rw [if_neg (by omega)]

/-- A batch among the ready ones after a step was there before, or the anchor takes it. -/
theorem not_refused_of_step {codecs : Codecs} {config : BatcherConfig} (hvalid : config.Valid)
    {anchor : Anchor} (hanchor : anchor.maxPayload = maxPayloadSize) {t t' : Tables}
    {now createdAt : Timestamp} {force : Bool} {result : Step}
    (hstep : step codecs config t now createdAt force = .ok (result, t')) :
    ∀ entry ∈ t'.readyBatches.entries, entry ∈ t.readyBatches.entries ∨
      ∃ batch, decodeBatch entry.1 entry.2 = .ok batch ∧ anchor.refuse batch = none := by
  unfold step at hstep
  split at hstep
  · exact absurd hstep (by simp)
  split at hstep
  · exact absurd hstep (by simp)
  · obtain ⟨-, rfl⟩ := Prod.mk.inj (Except.ok.inj hstep)
    exact fun entry hentry => .inl hentry
  · obtain ⟨-, rfl⟩ := Prod.mk.inj (Except.ok.inj hstep)
    exact fun entry hentry => .inl hentry
  · next flush hplan =>
    split at hstep
    · exact absurd hstep (by simp)
    · next ids tables hcommit =>
      obtain ⟨-, rfl⟩ := Prod.mk.inj (Except.ok.inj hstep)
      obtain ⟨n, runs, -, hcovers⟩ := plan_eq_flush hplan
      obtain ⟨-, hentries⟩ := formatDescriptor_commitBatches hcommit
      intro entry hentry
      rcases hentries entry hentry with hold | ⟨p, hp, rfl⟩
      · exact .inl hold
      · obtain ⟨batch, hbatch, hfst⟩ := List.mem_map.mp (List.of_mem_zip hp).2
        obtain ⟨run, -, hencodes⟩ := exists_encodes_of_mem hcovers.encodes batch hbatch
        have hfits : p.2.payload.length ≤ anchor.maxPayload := by
          rw [← hfst, hanchor]
          exact hencodes.size_le.trans (BatcherConfig.Valid.maxBatchSize_le hvalid)
        exact .inr ⟨_, decodeBatch_encodeBatch _ _ _, Anchor.refuse_eq_none hfits⟩

/-- **Packing is correct.**  With a compressor that does not fail, packing fewer than `2 ^ 32`
messages ends; its batches fit, and are the encodings of contiguous runs, each with the
number of its messages; the runs and the rejected messages partition the input in order; a
message is rejected only if it does not fit alone, and without compression exactly then.
Under a configuration that passed its checks, the anchor refuses no batch a step prepared. -/
theorem packing_correct (codecs : Codecs) (htotal : codecs.zstd.Total)
    (hconcat : codecs.prost.Concatenates) (config : BatcherConfig) :
    (∀ messages : List Decoded, messages.length < 2 ^ 32 →
      ∃ packed runs left, pack codecs config messages = .ok packed ∧
        PacksInOrder codecs config messages packed runs left ∧
        (config.compression = .none → left = messages.filter fun m =>
          decide (config.maxBatchSize < aloneSize codecs m))) ∧
    (config.Valid → ∀ anchor : Anchor, anchor.maxPayload = maxPayloadSize →
      ∀ t now createdAt force result t',
        step codecs config t now createdAt force = .ok (result, t') →
        ∀ entry ∈ t'.readyBatches.entries, entry ∈ t.readyBatches.entries ∨
          ∃ batch, decodeBatch entry.1 entry.2 = .ok batch ∧ anchor.refuse batch = none) := by
  constructor
  · intro messages hsmall
    obtain ⟨packed, runs, left, hpack, hpacks⟩ := exists_packsInOrder htotal hsmall
    exact ⟨packed, runs, left, hpack, hpacks, fun hplain => hpacks.left_eq hconcat hplain⟩
  · intro hvalid anchor hanchor t now createdAt force result t' hstep
    exact not_refused_of_step hvalid hanchor hstep

/-- Batches of at most ten bytes. -/
def tightConfig : BatcherConfig := ⟨30, 10, 8, .none⟩

/-- The second message does not fit alone, the others do not fit together. -/
def threeMessages : List Decoded :=
  [⟨0, ⟨[7, 7], [], [], []⟩⟩, ⟨1, ⟨[], List.replicate 20 1, [], []⟩⟩, ⟨2, ⟨[9], [], [], []⟩⟩]

def oneMessage : Tables :=
  ((pushMessage Tables.create ⟨1⟩ [10, 1, 7]).toOption.map Prod.snd).getD Tables.create

theorem packing_correct_tight :
    (∃ packed runs, pack plainCodecs tightConfig threeMessages = .ok packed ∧
      PacksInOrder plainCodecs tightConfig threeMessages packed runs
        [⟨1, ⟨[], List.replicate 20 1, [], []⟩⟩]) ∧
    ∃ t', step plainCodecs tightConfig oneMessage ⟨2⟩ ⟨3⟩ true = .ok (.flushed, t') ∧
      ∀ entry ∈ t'.readyBatches.entries, entry ∈ oneMessage.readyBatches.entries ∨
        ∃ batch, decodeBatch entry.1 entry.2 = .ok batch ∧
          Anchor.refuse ⟨.default, maxPayloadSize⟩ batch = none := by
  obtain ⟨hpack, hstep⟩ :=
    packing_correct plainCodecs (fun b => ⟨b, rfl⟩) Wire.wire_concatenates tightConfig
  constructor
  · obtain ⟨packed, runs, left, hok, hpacks, hleft⟩ := hpack threeMessages (by decide)
    have hexact : left = [⟨1, ⟨[], List.replicate 20 1, [], []⟩⟩] := by
      rw [hleft rfl]
      decide +kernel
    exact ⟨packed, runs, hok, hexact ▸ hpacks⟩
  · have hflushed : (step plainCodecs tightConfig oneMessage ⟨2⟩ ⟨3⟩ true).toOption.map Prod.fst =
        some .flushed := by
      decide +kernel
    obtain ⟨⟨result, t'⟩, hsome, rfl⟩ := Option.map_eq_some_iff.mp hflushed
    have hok : step plainCodecs tightConfig oneMessage ⟨2⟩ ⟨3⟩ true = .ok (.flushed, t') := by
      cases hresult : step plainCodecs tightConfig oneMessage ⟨2⟩ ⟨3⟩ true with
      | error error =>
        rw [hresult] at hsome
        exact absurd hsome (by simp [Except.toOption])
      | ok p =>
        rw [hresult] at hsome
        rw [Option.some.inj hsome]
    exact ⟨t', hok, hstep rfl ⟨.default, maxPayloadSize⟩ rfl oneMessage ⟨2⟩ ⟨3⟩ true _ t' hok⟩

end Anchor
end Robins
