import Robins.Protocol.Envelope

/-!
# Encoding and decoding envelopes

The envelope types are protocol buffer messages; their encoding and decoding is code of the `prost`
library, and so is the length of a length delimiter.  They enter as the fields of `Prost`, and what
the gateway relies on as `Prost.Lawful`: a batch can be read back, and decoding a buffer does not
produce more bytes than the buffer has.  The functions of the repository are those below, over any
`Prost`.

`WireCodec` has the generated code itself, by which the laws can be checked and inputs tried.
-/

namespace Robins
namespace Protocol

/-- A batch of envelopes, the unit that is anchored. -/
structure SignedEnvelopeBatch where
  batch : List SignedEnvelope
  deriving DecidableEq, Repr

/-- The generated encoders and decoders, with the text of a decoding error, and
`prost::length_delimiter_len`. -/
structure Prost where
  /-- `SignedEnvelope::decode` -/
  decodeEnvelope : Bytes → Except String SignedEnvelope
  /-- `SignedEnvelope::encode_to_vec` -/
  encodeEnvelope : SignedEnvelope → Bytes
  /-- `SignedEnvelopeBatch::decode` -/
  decodeBatch : Bytes → Except String SignedEnvelopeBatch
  /-- `SignedEnvelopeBatch::encode_to_vec` -/
  encodeBatch : SignedEnvelopeBatch → Bytes
  /-- `length_delimiter_len` -/
  lengthDelimiterLen : ℕ → ℕ

/-- What the gateway relies on. -/
structure Prost.Lawful (prost : Prost) : Prop where
  /-- A batch of envelopes that fit in memory is read back as it was written. -/
  decodeBatch_encodeBatch : ∀ b : SignedEnvelopeBatch, (∀ e ∈ b.batch, e.size ≤ isizeMax) →
    prost.decodeBatch (prost.encodeBatch b) = .ok b
  /-- Decoded fields are parts of the buffer. -/
  size_le_of_decodeEnvelope : ∀ {bytes e}, prost.decodeEnvelope bytes = .ok e →
    e.size ≤ bytes.length

/-- A repeated field is encoded element by element, so batches one after the other are
encoded one after the other. -/
def Prost.Concatenates (prost : Prost) : Prop :=
  ∀ es es' : List SignedEnvelope,
    prost.encodeBatch ⟨es ++ es'⟩ = prost.encodeBatch ⟨es⟩ ++ prost.encodeBatch ⟨es'⟩

section

variable (prost : Prost)

/-- Decode an envelope from wire bytes. -/
def decodeEnvelope (bytes : Bytes) : Except ProtocolError SignedEnvelope :=
  (prost.decodeEnvelope bytes).mapError .decode

/-- Encode an envelope to wire bytes. -/
def encodeEnvelope (e : SignedEnvelope) : Bytes := prost.encodeEnvelope e

/-- Decode a batch from wire bytes. -/
def decodeEnvelopeBatch (bytes : Bytes) : Except ProtocolError SignedEnvelopeBatch :=
  (prost.decodeBatch bytes).mapError .decode

/-- Encode a batch to wire bytes. -/
def encodeEnvelopeBatch (b : SignedEnvelopeBatch) : Bytes := prost.encodeBatch b

end

variable {prost : Prost}

theorem decodeEnvelope_eq_ok_iff {bytes : Bytes} {e : SignedEnvelope} :
    decodeEnvelope prost bytes = .ok e ↔ prost.decodeEnvelope bytes = .ok e := by
  unfold decodeEnvelope
  cases prost.decodeEnvelope bytes <;> simp [Except.mapError]

theorem Prost.Lawful.size_le (h : prost.Lawful) {bytes : Bytes} {e : SignedEnvelope}
    (he : Protocol.decodeEnvelope prost bytes = .ok e) : e.size ≤ bytes.length :=
  h.size_le_of_decodeEnvelope (decodeEnvelope_eq_ok_iff.mp he)

theorem Prost.Lawful.decodeEnvelopeBatch_encodeEnvelopeBatch (h : prost.Lawful)
    {b : SignedEnvelopeBatch} (hb : ∀ e ∈ b.batch, e.size ≤ isizeMax) :
    decodeEnvelopeBatch prost (encodeEnvelopeBatch prost b) = .ok b := by
  rw [decodeEnvelopeBatch, encodeEnvelopeBatch, h.decodeBatch_encodeBatch b hb]
  rfl

/-- An envelope takes no more space alone than in a batch with others. -/
theorem Prost.Concatenates.length_le (h : prost.Concatenates) {e : SignedEnvelope}
    {es : List SignedEnvelope} (he : e ∈ es) :
    (encodeEnvelopeBatch prost ⟨[e]⟩).length ≤ (encodeEnvelopeBatch prost ⟨es⟩).length := by
  obtain ⟨before, after, rfl⟩ := List.append_of_mem he
  have hsplit := h before (e :: after)
  have hhead := h [e] after
  rw [List.singleton_append] at hhead
  unfold encodeEnvelopeBatch
  rw [hsplit, hhead, List.length_append, List.length_append]
  omega

end Protocol
end Robins
