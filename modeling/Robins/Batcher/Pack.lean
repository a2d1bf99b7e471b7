import Robins.Batcher.Config
import Robins.Lib.Conveyor
import Robins.Protocol.Codec

/-!
# Packing messages into batches

`packInto` encodes a run of messages as one batch; when the final payload is too big it halves the
run and encodes each half again, and a single message that is too big on its own is rejected.  The
recursion is on nonempty runs: an empty one is never split, because `pack` does not start on one
and a half of two or more messages has at least one.

## What packing produces

`Packing` is the recursion as a relation, with a constructor for each way in which it can go, and
`packing_of_packInto` says that every result came about in one of them.  From it the result is
described by a sieve: the batches are encodings of contiguous runs of the messages, in order, and
every message outside them is in the rejections (`PacksTo`, `Packing.spec`).  The result is
collected in an accumulator that is handed from half to half, so what is described is what a call
has added to it.

## Packing ends

It ends with a result when the compressor does not fail, since both halves are shorter than the
run (`exists_packInto`).  Read back, an encoded run is its envelopes
(`openPayload_of_encode`); this needs the two laws of the codecs, that what was compressed is
decompressed and what was encoded is decoded.
-/

namespace Robins
namespace Batcher

open BatchStore Protocol

/-- The libraries the batcher encodes with. -/
structure Codecs where
  prost : Prost
  zstd : Zstd

/-- What the batcher relies on. -/
structure Codecs.Lawful (codecs : Codecs) : Prop where
  prost : codecs.prost.Lawful
  zstd : codecs.zstd.Lawful

/-! ## Data -/

inductive BatchError where
  | payloadTooLarge (message : MessageId) (serialized payload max : ℕ) (mode : Compression)
  | invalidEnvelope (message : MessageId) (reason : String)
  | compression (reason : String)
  | store (error : StoreError)
  deriving DecidableEq, Repr

/-- The text of an error (its `Display`). -/
def BatchError.toText : BatchError → String
  | .payloadTooLarge message serialized payload max mode =>
    "message " ++ toString message ++ " cannot fit max_batch_size: serialized " ++
      toString serialized ++ " B, final payload " ++ toString payload ++ " B > " ++
      toString max ++ " B (compression: " ++ mode.asStr ++ ")"
  | .invalidEnvelope message reason =>
    "message " ++ toString message ++ " is not a valid envelope: " ++ reason
  | .compression reason => "compression failed: " ++ reason
  | .store error => error.toText

/-- The message an error is about, when it is about one. -/
def BatchError.message? : BatchError → Option MessageId
  | .payloadTooLarge message _ _ _ _ => some message
  | .invalidEnvelope message _ => some message
  | .compression _ => none
  | .store _ => none

structure Decoded where
  id : MessageId
  envelope : SignedEnvelope
  deriving DecidableEq, Repr

/-- The result of packing: batches with their size before compression, the
messages that could not be batched, and the number of splits. -/
structure Packed where
  batches : List (PreparedBatch × ℕ)
  rejected : List BatchError
  splits : ℕ
  deriving DecidableEq, Repr

/-- A packing that has not started. -/
def Packed.default : Packed := ⟨[], [], 0⟩

/-! ## Packing -/

section

variable (codecs : Codecs) (config : BatcherConfig)

/-- Serialize and compress one batch: the size before compression, and the final
payload. -/
def encode (messages : List Decoded) : Except BatchError (ℕ × Bytes) :=
  let serialized := encodeEnvelopeBatch codecs.prost ⟨messages.map Decoded.envelope⟩
  match config.compression.compress codecs.zstd serialized with
  | .error reason => .error (.compression reason)
  | .ok payload => .ok (serialized.length, payload)

/-- Encode a run of messages, splitting it in half when it is too big. -/
def packInto (messages : List Decoded) (hne : messages ≠ []) (out : Packed) :
    Except BatchError Packed :=
  match encode codecs config messages with
  | .error err => .error err
  | .ok (serialized, payload) =>
    if payload.length ≤ config.maxBatchSize then
      .ok { out with
        batches := out.batches ++
          [(⟨UInt32.ofNat messages.length, payload⟩, serialized)] }
    else if honly : messages.length = 1 then
      .ok { out with
        rejected := out.rejected ++
          [.payloadTooLarge (messages.head hne).id serialized payload.length
            config.maxBatchSize config.compression] }
    else
      have hlen : 2 ≤ messages.length := by
        have := List.length_pos_of_ne_nil hne
        omega
      have hleft : messages.take (messages.length / 2) ≠ [] := by
        rw [← List.length_pos_iff, List.length_take]
        omega
      have hright : messages.drop (messages.length / 2) ≠ [] := by
        rw [← List.length_pos_iff, List.length_drop]
        omega
      match packInto (messages.take (messages.length / 2)) hleft
        { out with splits := out.splits + 1 } with
      | .error err => .error err
      | .ok out => packInto (messages.drop (messages.length / 2)) hright out
termination_by messages.length
decreasing_by
  · rw [List.length_take]
    omega
  · rw [List.length_drop]
    omega

/-- Pack messages; no messages make no batch. -/
def pack (messages : List Decoded) : Except BatchError Packed :=
  if hne : messages = [] then .ok .default
  else packInto codecs config messages hne .default

end

/-! ## What packing produces -/

variable {codecs : Codecs} {config : BatcherConfig}

/-- The batch is the encoding of this run of messages and fits. -/
structure Encodes (codecs : Codecs) (config : BatcherConfig) (run : List Decoded)
    (batch : PreparedBatch × ℕ) : Prop where
  run_ne_nil : run ≠ []
  encode_eq : encode codecs config run = .ok (batch.2, batch.1.payload)
  size_le : batch.1.payload.length ≤ config.maxBatchSize
  messageCount_eq : batch.1.messageCount = UInt32.ofNat run.length

/-- The error rejects this message, whose one-message batch is too big. -/
def TooLarge (codecs : Codecs) (config : BatcherConfig) (message : Decoded)
    (err : BatchError) : Prop :=
  ∃ serialized payload, encode codecs config [message] = .ok (serialized, payload) ∧
    config.maxBatchSize < payload.length ∧
    err = .payloadTooLarge message.id serialized payload.length config.maxBatchSize
      config.compression

/-- Every batch of a packing is the encoding of a run. -/
theorem exists_encodes_of_mem {runs : List (List Decoded)} {batches : List (PreparedBatch × ℕ)}
    (h : List.Forall₂ (Encodes codecs config) runs batches) :
    ∀ batch ∈ batches, ∃ run ∈ runs, Encodes codecs config run batch := by
  induction h with
  | nil => simp
  | @cons run batch runs batches hd _ ih =>
    intro b hb
    rcases List.mem_cons.mp hb with rfl | hb
    · exact ⟨run, List.mem_cons_self, hd⟩
    · obtain ⟨run', hrun', hencodes⟩ := ih b hb
      exact ⟨run', List.mem_cons_of_mem _ hrun', hencodes⟩

/-- What a packing has added to `out`, for a list of messages. -/
structure PacksTo (codecs : Codecs) (config : BatcherConfig) (messages : List Decoded)
    (out out' : Packed) (runs : List (List Decoded)) (left : List Decoded)
    (batches : List (PreparedBatch × ℕ)) (rejected : List BatchError) : Prop where
  sieve : Sieve messages runs left
  encodes : List.Forall₂ (Encodes codecs config) runs batches
  tooLarge : List.Forall₂ (TooLarge codecs config) left rejected
  batches_eq : out'.batches = out.batches ++ batches
  rejected_eq : out'.rejected = out.rejected ++ rejected

/-- How `packInto` comes to its result: a run that fits is a batch, a single message that does
not is rejected, and a longer run is packed half by half. -/
inductive Packing (codecs : Codecs) (config : BatcherConfig) :
    List Decoded → Packed → Packed → Prop
  | whole {messages : List Decoded} {out : Packed} {serialized : ℕ} {payload : Bytes}
    (hne : messages ≠ []) (henc : encode codecs config messages = .ok (serialized, payload))
    (hle : payload.length ≤ config.maxBatchSize) :
    Packing codecs config messages out { out with
      batches := out.batches ++ [(⟨UInt32.ofNat messages.length, payload⟩, serialized)] }
  | reject {only : Decoded} {out : Packed} {serialized : ℕ} {payload : Bytes}
    (henc : encode codecs config [only] = .ok (serialized, payload))
    (hgt : ¬ payload.length ≤ config.maxBatchSize) :
    Packing codecs config [only] out { out with
      rejected := out.rejected ++ [.payloadTooLarge only.id serialized payload.length
        config.maxBatchSize config.compression] }
  | halves {messages : List Decoded} {out out₁ out' : Packed} {serialized : ℕ} {payload : Bytes}
    (henc : encode codecs config messages = .ok (serialized, payload))
    (hgt : ¬ payload.length ≤ config.maxBatchSize) (hlen : 2 ≤ messages.length)
    (hleft : Packing codecs config (messages.take (messages.length / 2))
      { out with splits := out.splits + 1 } out₁)
    (hright : Packing codecs config (messages.drop (messages.length / 2)) out₁ out') :
    Packing codecs config messages out out'

theorem packing_of_packInto {messages : List Decoded} (hne : messages ≠ []) {out out' : Packed}
    (h : packInto codecs config messages hne out = .ok out') :
    Packing codecs config messages out out' := by
  induction messages, hne, out using packInto.induct codecs config generalizing out' with
  | case1 messages hne out err henc =>
    rw [packInto, henc] at h
    exact absurd h (by simp)
  | case2 messages hne out serialized payload henc hle =>
    rw [packInto, henc] at h
    dsimp only at h
    rw [if_pos hle] at h
    obtain rfl := Except.ok.inj h
    exact .whole hne henc hle
  | case3 messages hne out serialized payload henc hgt honly =>
    obtain ⟨only, rfl⟩ := List.length_eq_one_iff.mp honly
    rw [packInto, henc] at h
    dsimp only at h
    rw [if_neg hgt, dif_pos honly] at h
    obtain rfl := Except.ok.inj h
    exact .reject henc hgt
  | case4 messages hne out serialized payload henc hgt honly hlen hleft hright err hhalf ih =>
    rw [packInto, henc] at h
    dsimp only at h
    rw [if_neg hgt, dif_neg honly, hhalf] at h
    exact absurd h (by simp)
  | case5 messages hne out serialized payload henc hgt honly hlen hleft hright out₁ hhalf ih₁ ih₂ =>
    rw [packInto, henc] at h
    dsimp only at h
    rw [if_neg hgt, dif_neg honly, hhalf] at h
    exact .halves henc hgt hlen (ih₁ hhalf) (ih₂ h)

/-- **Packing cuts the messages into encoded runs and rejected messages.**  The induction follows
the halving: the runs of a list are those of its first half and then those of its second. -/
theorem Packing.spec {messages : List Decoded} {out out' : Packed}
    (h : Packing codecs config messages out out') :
    ∃ runs left batches rejected,
      PacksTo codecs config messages out out' runs left batches rejected := by
  induction h with
  | @whole messages out serialized payload hne henc hle =>
    refine ⟨[messages], [], [(⟨UInt32.ofNat messages.length, payload⟩, serialized)], [],
      ?_, ?_, .nil, rfl, (List.append_nil _).symm⟩
    · have := Sieve.group messages Sieve.nil
      rwa [List.append_nil] at this
    · exact .cons ⟨hne, henc, hle, rfl⟩ .nil
  | @reject only out serialized payload henc hgt =>
    refine ⟨[], [only], [], [.payloadTooLarge only.id serialized payload.length
      config.maxBatchSize config.compression], .leave only .nil, .nil, ?_,
      (List.append_nil _).symm, rfl⟩
    exact .cons ⟨serialized, payload, henc, by omega, rfl⟩ .nil
  | halves henc hgt hlen hleft hright ih₁ ih₂ =>
    -- the two halves are packed one after the other
    obtain ⟨runs₁, left₁, batches₁, rejected₁, h₁⟩ := ih₁
    obtain ⟨runs₂, left₂, batches₂, rejected₂, h₂⟩ := ih₂
    refine ⟨runs₁ ++ runs₂, left₁ ++ left₂, batches₁ ++ batches₂, rejected₁ ++ rejected₂,
      ?_, List.rel_append h₁.encodes h₂.encodes, List.rel_append h₁.tooLarge h₂.tooLarge, ?_, ?_⟩
    · have := h₁.sieve.append h₂.sieve
      rwa [List.take_append_drop] at this
    · rw [h₂.batches_eq, h₁.batches_eq, List.append_assoc]
    · rw [h₂.rejected_eq, h₁.rejected_eq, List.append_assoc]

theorem pack_spec {messages : List Decoded} {packed : Packed}
    (h : pack codecs config messages = .ok packed) :
    ∃ runs left, Sieve messages runs left ∧
      List.Forall₂ (Encodes codecs config) runs packed.batches ∧
      List.Forall₂ (TooLarge codecs config) left packed.rejected := by
  unfold pack at h
  split at h
  · next hnil =>
    obtain rfl := Except.ok.inj h
    rw [hnil]
    exact ⟨[], [], .nil, .nil, .nil⟩
  · next hne =>
    obtain ⟨runs, left, batches, rejected, hp⟩ := (packing_of_packInto hne h).spec
    have hb : packed.batches = batches := by rw [hp.batches_eq]; rfl
    have hr : packed.rejected = rejected := by rw [hp.rejected_eq]; rfl
    rw [hb, hr]
    exact ⟨runs, left, hp.sieve, hp.encodes, hp.tooLarge⟩

/-! ## Packing ends -/

section

variable (codecs : Codecs) (config : BatcherConfig)

theorem exists_encode (htotal : codecs.zstd.Total) (messages : List Decoded) :
    ∃ p, encode codecs config messages = .ok p := by
  obtain ⟨payload, hcompress⟩ := config.compression.exists_compress htotal
    (encodeEnvelopeBatch codecs.prost ⟨messages.map Decoded.envelope⟩)
  unfold encode
  dsimp only
  rw [hcompress]
  exact ⟨_, rfl⟩

/-- **Packing ends with a result** when the compressor does not fail.  Both halves of a list of
two messages or more are shorter than it. -/
theorem exists_packInto (htotal : codecs.zstd.Total) (messages : List Decoded)
    (hne : messages ≠ []) (out : Packed) :
    ∃ packed, packInto codecs config messages hne out = .ok packed := by
  induction messages, hne, out using packInto.induct codecs config with
  | case1 messages hne out err henc =>
    obtain ⟨p, hok⟩ := exists_encode codecs config htotal messages
    rw [hok] at henc
    exact absurd henc (by simp)
  | case2 messages hne out serialized payload henc hle =>
    rw [packInto, henc]
    dsimp only
    rw [if_pos hle]
    exact ⟨_, rfl⟩
  | case3 messages hne out serialized payload henc hgt honly =>
    rw [packInto, henc]
    dsimp only
    rw [if_neg hgt, dif_pos honly]
    exact ⟨_, rfl⟩
  | case4 messages hne out serialized payload henc hgt honly hlen hleft hright err hhalf ih =>
    obtain ⟨packed, hok⟩ := ih
    rw [hok] at hhalf
    exact absurd hhalf (by simp)
  | case5 messages hne out serialized payload henc hgt honly hlen hleft hright out₁ hhalf ih₁ ih₂ =>
    rw [packInto, henc]
    dsimp only
    rw [if_neg hgt, dif_neg honly, hhalf]
    exact ih₂

theorem exists_pack (htotal : codecs.zstd.Total) (messages : List Decoded) :
    ∃ packed, pack codecs config messages = .ok packed := by
  unfold pack
  split
  · exact ⟨_, rfl⟩
  · exact exists_packInto codecs config htotal messages _ _

end

/-- Reading a payload back: decompress, then decode. -/
def openPayload (codecs : Codecs) (compression : Compression) (payload : Bytes) :
    Option (List SignedEnvelope) :=
  match compression.decompress codecs.zstd payload with
  | .error _ => none
  | .ok serialized =>
    match decodeEnvelopeBatch codecs.prost serialized with
    | .error _ => none
    | .ok b => some b.batch

/-- **An encoded run is read back as its envelopes.**  This is where the laws of the codecs are
used: what was compressed is decompressed, and what was written is read. -/
theorem openPayload_of_encode (hc : codecs.Lawful) {run : List Decoded}
    (hsize : ∀ d ∈ run, d.envelope.size ≤ isizeMax) {serialized : ℕ} {payload : Bytes}
    (h : encode codecs config run = .ok (serialized, payload)) :
    openPayload codecs config.compression payload = some (run.map Decoded.envelope) := by
  unfold encode at h
  dsimp only at h
  split at h
  · exact absurd h (by simp)
  · next payload' hcompress =>
    obtain ⟨rfl, rfl⟩ := Prod.mk.inj (Except.ok.inj h)
    have hdecompress := Compression.decompress_compress hc.zstd hcompress
    have hdecode := hc.prost.decodeEnvelopeBatch_encodeEnvelopeBatch
      (b := ⟨run.map Decoded.envelope⟩) (by
        intro e he
        obtain ⟨d, hd, rfl⟩ := List.mem_map.mp he
        exact hsize d hd)
    simp only [openPayload, hdecompress, hdecode]

end Batcher
end Robins
