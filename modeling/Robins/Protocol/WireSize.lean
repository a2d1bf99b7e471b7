import Robins.Protocol.WireCodec

/-!
# The size of an envelope written again

An envelope arrives as bytes, and is written anew when it goes into a batch.  The two forms need not
agree: the arriving bytes may pad their varints, repeat a field, and carry fields and groups the
schema does not know, while the writer does none of it.  So the bytes written are never more than
the bytes read (`length_encodeEnvelope_le`), and the room an envelope takes in a batch can be judged
by the bytes it came in.

What is needed of `prost` for this is `Prost.FollowsWire`: it writes the schema, and reads its
fields off the buffer one after another.  Reading goes field by field, and so does the estimate: a
field that is read replaces a slot, which adds at most what the field took
(`length_encodeEnvelope_le_of_mergeEnvelope`), or it is unknown and adds nothing.
-/

namespace Robins
namespace Protocol

open ProtoWire Wire

/-- The library writes and reads the wire format: a batch is written as its fields, the
length of a delimiter is that of its varint, and an envelope is put together from the
fields read off the buffer. -/
structure Prost.FollowsWire (prost : Prost) : Prop where
  encodeBatch_eq : ∀ b : SignedEnvelopeBatch, prost.encodeBatch b = Wire.encodeBatch b
  lengthDelimiterLen_eq : ∀ n : ℕ, prost.lengthDelimiterLen n = (encodeVarint n).length
  reads_of_decodeEnvelope : ∀ {bytes e}, prost.decodeEnvelope bytes = .ok e →
    ∃ fs, Reads bytes fs ∧ mergeFields mergeEnvelope ⟨[], [], [], []⟩ fs = .ok e

theorem Wire.wire_followsWire : wire.FollowsWire where
  encodeBatch_eq _ := rfl
  lengthDelimiterLen_eq _ := rfl
  reads_of_decodeEnvelope := by
    intro bytes e h
    obtain ⟨fs, hfs, hmerge⟩ := fields_of_decodeEnvelope h
    exact ⟨fs, reads_of_parseFields hfs, hmerge⟩

/-! ## One envelope -/

theorem length_encodeFields_append (fs gs : List Field) :
    (encodeFields (fs ++ gs)).length = (encodeFields fs).length + (encodeFields gs).length := by
  rw [encodeFields, List.flatMap_append, List.length_append]
  rfl

/-- A slot is written as one field, or not at all. -/
theorem length_encodeFields_bytesField_le (number : ℕ) (b : Bytes) :
    (encodeFields (bytesField number b)).length ≤
      (ProtoWire.Field.mk number (.lengthDelimited b)).encode.length := by
  unfold bytesField
  split
  · exact Nat.zero_le _
  · rw [encodeFields, List.flatMap_singleton]

theorem length_encodeEnvelope (e : SignedEnvelope) :
    (Wire.encodeEnvelope e).length =
      (encodeFields (bytesField 1 e.sensorId)).length +
        (encodeFields (bytesField 2 e.nonce)).length +
        (encodeFields (bytesField 3 e.message)).length +
        (encodeFields (bytesField 4 e.signature)).length := by
  rw [Wire.encodeEnvelope, envelopeFields, length_encodeFields_append,
    length_encodeFields_append, length_encodeFields_append]

/-- A field read into a slot replaces what was there. -/
theorem length_slot_le (number : ℕ) {v : Value} {set : Bytes → SignedEnvelope}
    {e : SignedEnvelope} (h : (expectBytes v).map set = .ok e) :
    ∃ b, set b = e ∧ (encodeFields (bytesField number b)).length ≤
      (ProtoWire.Field.mk number v).encode.length := by
  obtain ⟨b, rfl, hset⟩ := exists_of_slot h
  exact ⟨b, hset, length_encodeFields_bytesField_le number b⟩

/-- **Reading a field adds at most the field** to what will be written. -/
theorem length_encodeEnvelope_le_of_mergeEnvelope {e e' : SignedEnvelope} {f : Field}
    (h : mergeEnvelope e f = .ok e') :
    (Wire.encodeEnvelope e').length ≤ (Wire.encodeEnvelope e).length + f.encode.length := by
  obtain ⟨number, value⟩ := f
  rw [length_encodeEnvelope, length_encodeEnvelope]
  unfold mergeEnvelope at h
  dsimp only at h
  split at h
  · obtain ⟨b, rfl, hb⟩ := length_slot_le 1 h
    dsimp only
    omega
  · obtain ⟨b, rfl, hb⟩ := length_slot_le 2 h
    dsimp only
    omega
  · obtain ⟨b, rfl, hb⟩ := length_slot_le 3 h
    dsimp only
    omega
  · obtain ⟨b, rfl, hb⟩ := length_slot_le 4 h
    dsimp only
    omega
  · obtain rfl := Except.ok.inj h
    exact Nat.le_add_right _ _

theorem length_encodeEnvelope_le_of_mergeFields {e e' : SignedEnvelope} {fs : List Field}
    (h : mergeFields mergeEnvelope e fs = .ok e') :
    (Wire.encodeEnvelope e').length ≤
      (Wire.encodeEnvelope e).length + (encodeFields fs).length := by
  rw [encodeFields, List.length_flatMap]
  exact measure_le_of_mergeFields mergeEnvelope
    (fun _ _ _ => length_encodeEnvelope_le_of_mergeEnvelope) h

/-- **An envelope is written in no more bytes than it was read from.**  What is read last wins,
and is what is written; what was read before it, and fields that are not known, only made the
buffer longer. -/
theorem length_encodeEnvelope_le {prost : Prost} (hprost : prost.FollowsWire) {bytes : Bytes}
    {e : SignedEnvelope} (h : decodeEnvelope prost bytes = .ok e) :
    (Wire.encodeEnvelope e).length ≤ bytes.length := by
  obtain ⟨fs, hreads, hmerge⟩ :=
    hprost.reads_of_decodeEnvelope (decodeEnvelope_eq_ok_iff.mp h)
  have hwrite := length_encodeEnvelope_le_of_mergeFields hmerge
  have hread := length_encodeFields_le_of_reads hreads
  have hempty : (Wire.encodeEnvelope ⟨[], [], [], []⟩).length = 0 := rfl
  omega

/-! ## A batch of envelopes -/

/-- What a body of so many bytes takes in a batch: tag, length delimiter, body. -/
def entryLength (n : ℕ) : ℕ := 1 + (encodeVarint n).length + n

theorem entryLength_mono {m n : ℕ} (h : m ≤ n) : entryLength m ≤ entryLength n := by
  have := length_encodeVarint_mono h
  unfold entryLength
  omega

theorem length_encodeBatch_cons (e : SignedEnvelope) (es : List SignedEnvelope) :
    (Wire.encodeBatch ⟨e :: es⟩).length =
      entryLength (Wire.encodeEnvelope e).length + (Wire.encodeBatch ⟨es⟩).length := by
  have hkey : encodeVarint (1 * 8 + 2) = [10] := by
    rw [encodeVarint]
    rfl
  have hcons : batchFields ⟨e :: es⟩ =
      [⟨1, .lengthDelimited (Wire.encodeEnvelope e)⟩] ++ batchFields ⟨es⟩ := rfl
  rw [Wire.encodeBatch, Wire.encodeBatch, hcons, length_encodeFields_append, encodeFields,
    List.flatMap_singleton, Field.encode, Value.wireType, Value.encode, hkey, entryLength]
  simp only [List.length_append, List.length_singleton]
  omega

end Protocol
end Robins
