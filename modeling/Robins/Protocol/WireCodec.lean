import Robins.Protocol.Codec
import Robins.Lib.ProtoWire

/-!
# The envelope schema on the wire

The encoders and decoders `prost` generates from the schema of the envelope
types, over the wire format of `ProtoWire`: an envelope has four `bytes` fields,
written in order and left out when empty; a batch repeats field 1, each body an
envelope.

When reading, the last occurrence of a field wins, unknown fields are skipped, groups
too, and a known field with another wire type is an error.  A message may be nested
in another, and a group in a message, to a depth of `recursionLimit`; each message
inside another is read with one level less.

`wire_lawful` shows that this satisfies what the gateway relies on: a batch is read
back as it was written, and an envelope is no larger than the bytes it was read from.
-/

namespace Robins
namespace Protocol
namespace Wire

open ProtoWire

/-! ## Schema -/

/-- A `bytes` field: left out when empty. -/
def bytesField (number : ℕ) (b : Bytes) : List Field :=
  if b = [] then [] else [⟨number, .lengthDelimited b⟩]

def envelopeFields (e : SignedEnvelope) : List Field :=
  bytesField 1 e.sensorId ++ bytesField 2 e.nonce ++ bytesField 3 e.message ++
    bytesField 4 e.signature

def encodeEnvelope (e : SignedEnvelope) : Bytes := encodeFields (envelopeFields e)

/-- The body of a `bytes` field. -/
def expectBytes : Value → Except String Bytes
  | .lengthDelimited b => .ok b
  | _ => .error "failed to decode Protobuf message: invalid wire type"

/-- Read one field into an envelope. -/
def mergeEnvelope (e : SignedEnvelope) (f : Field) : Except String SignedEnvelope :=
  match f.number with
  | 1 => (expectBytes f.value).map fun b => { e with sensorId := b }
  | 2 => (expectBytes f.value).map fun b => { e with nonce := b }
  | 3 => (expectBytes f.value).map fun b => { e with message := b }
  | 4 => (expectBytes f.value).map fun b => { e with signature := b }
  | _ => .ok e

/-- How deep messages and groups may be nested. -/
def recursionLimit : ℕ := 100

/-- The fields of a whole buffer. -/
def fieldsOf (limit : ℕ) (bytes : Bytes) : Except String (List Field) :=
  match parseFields limit bytes with
  | some fs => .ok fs
  | none => .error "failed to decode Protobuf message"

/-- Read fields into a message one after another. -/
def mergeFields {α : Type} (merge : α → Field → Except String α) : α → List Field → Except String α
  | a, [] => .ok a
  | a, f :: fs => (merge a f).bind fun b => mergeFields merge b fs

/-- Read a message into the one that is there, with one level less. -/
def mergeInto {α : Type} (merge : ℕ → α → Field → Except String α) (limit : ℕ) (a : α)
    (value : Value) : Except String α :=
  (expectBytes value).bind fun bytes =>
    match limit with
    | 0 => .error "failed to decode Protobuf message: recursion limit reached"
    | limit + 1 => (fieldsOf limit bytes).bind (mergeFields (merge limit) a)

def decodeEnvelope (bytes : Bytes) : Except String SignedEnvelope :=
  (fieldsOf recursionLimit bytes).bind (mergeFields mergeEnvelope ⟨[], [], [], []⟩)

def batchFields (b : SignedEnvelopeBatch) : List Field :=
  b.batch.map fun e => ⟨1, .lengthDelimited (encodeEnvelope e)⟩

def encodeBatch (b : SignedEnvelopeBatch) : Bytes := encodeFields (batchFields b)

/-- Read one field into a batch. -/
def mergeBatch (b : SignedEnvelopeBatch) (f : Field) : Except String SignedEnvelopeBatch :=
  match f.number with
  | 1 =>
    (mergeInto (fun _ => mergeEnvelope) recursionLimit ⟨[], [], [], []⟩ f.value).map fun e =>
      ⟨b.batch ++ [e]⟩
  | _ => .ok b

def decodeBatch (bytes : Bytes) : Except String SignedEnvelopeBatch :=
  (fieldsOf recursionLimit bytes).bind (mergeFields mergeBatch ⟨[]⟩)

/-- The generated code. -/
def wire : Prost where
  decodeEnvelope := decodeEnvelope
  encodeEnvelope := encodeEnvelope
  decodeBatch := decodeBatch
  encodeBatch := encodeBatch
  lengthDelimiterLen n := (encodeVarint n).length

/-! ## Round trips -/

theorem mergeFields_append {α : Type} (merge : α → Field → Except String α) (a : α)
    (fs gs : List Field) :
    mergeFields merge a (fs ++ gs) =
      (mergeFields merge a fs).bind fun b => mergeFields merge b gs := by
  induction fs generalizing a with
  | nil => rfl
  | cons f fs ih =>
    rw [List.cons_append, mergeFields, mergeFields]
    cases merge a f with
    | error err => rfl
    | ok b => exact ih b

theorem fieldsOf_encodeFields {fs : List Field} (h : ∀ f ∈ fs, f.Valid) (limit : ℕ) :
    fieldsOf limit (encodeFields fs) = .ok fs := by
  rw [fieldsOf, parseFields_encodeFields h]

theorem bytesField_valid {number : ℕ} {b : Bytes} (hpos : 0 < number) (hlt : number < 2 ^ 29)
    (hb : b.length < 2 ^ 64) : ∀ f ∈ bytesField number b, f.Valid := by
  intro f hf
  unfold bytesField at hf
  split at hf
  · exact absurd hf (by simp)
  · obtain rfl := List.mem_singleton.mp hf
    exact ⟨hpos, hlt, hb⟩

theorem envelopeFields_valid {e : SignedEnvelope} (he : e.size ≤ isizeMax) :
    ∀ f ∈ envelopeFields e, f.Valid := by
  have hmax : isizeMax < 2 ^ 64 := by decide
  unfold SignedEnvelope.size at he
  intro f hf
  simp only [envelopeFields, List.mem_append] at hf
  rcases hf with ((hf | hf) | hf) | hf
  · exact bytesField_valid (by decide) (by decide) (by omega) f hf
  · exact bytesField_valid (by decide) (by decide) (by omega) f hf
  · exact bytesField_valid (by decide) (by decide) (by omega) f hf
  · exact bytesField_valid (by decide) (by decide) (by omega) f hf

/-- Reading a `bytes` field into a message whose slot for it is still empty. -/
theorem mergeFields_bytesField {α : Type} (merge : α → Field → Except String α) (number : ℕ)
    (set : Bytes → α) {a : α} (hempty : set [] = a)
    (hset : ∀ b, merge a ⟨number, .lengthDelimited b⟩ = .ok (set b)) (b : Bytes) :
    mergeFields merge a (bytesField number b) = .ok (set b) := by
  unfold bytesField
  split
  · next hb => rw [mergeFields, hb, hempty]
  · rw [mergeFields, hset]
    rfl

theorem mergeFields_envelopeFields (e : SignedEnvelope) :
    mergeFields mergeEnvelope ⟨[], [], [], []⟩ (envelopeFields e) = .ok e := by
  obtain ⟨sensorId, nonce, message, signature⟩ := e
  have h₁ := mergeFields_bytesField mergeEnvelope 1
    (fun b => ⟨b, [], [], []⟩) rfl (fun _ => rfl) sensorId
  have h₂ := mergeFields_bytesField mergeEnvelope 2
    (fun b => ⟨sensorId, b, [], []⟩) rfl (fun _ => rfl) nonce
  have h₃ := mergeFields_bytesField mergeEnvelope 3
    (fun b => ⟨sensorId, nonce, b, []⟩) rfl (fun _ => rfl) message
  have h₄ := mergeFields_bytesField mergeEnvelope 4
    (fun b => ⟨sensorId, nonce, message, b⟩) rfl (fun _ => rfl) signature
  simp only [envelopeFields, mergeFields_append, h₁, h₂, h₃, h₄, Except.bind]

/-- An envelope is read back as it was written, at every level. -/
theorem merge_encodeEnvelope {e : SignedEnvelope} (he : e.size ≤ isizeMax) (limit : ℕ) :
    (fieldsOf limit (encodeEnvelope e)).bind (mergeFields mergeEnvelope ⟨[], [], [], []⟩) =
      .ok e := by
  rw [encodeEnvelope, fieldsOf_encodeFields (envelopeFields_valid he)]
  exact mergeFields_envelopeFields e

theorem length_encode_bytesField_le (number : ℕ) (b : Bytes) (hn : number < 16)
    (hb : b.length < 2 ^ 64) :
    (encodeFields (bytesField number b)).length ≤ b.length + 11 := by
  unfold bytesField
  split
  · exact Nat.zero_le _
  · have hkey := length_encodeVarint_le (k := 1) (n := number * 8 + 2) (by omega) (by omega)
    have hlen := length_encodeVarint_le (k := 10) (n := b.length) (by omega) (by omega)
    rw [encodeFields, List.flatMap_singleton, Field.encode, Value.encode, Value.wireType,
      List.length_append, List.length_append]
    dsimp only
    omega

theorem length_encodeEnvelope_lt {e : SignedEnvelope} (he : e.size ≤ isizeMax) :
    (encodeEnvelope e).length < 2 ^ 64 := by
  have hmax : isizeMax = 2 ^ 63 - 1 := rfl
  unfold SignedEnvelope.size at he
  have h₁ := length_encode_bytesField_le 1 e.sensorId (by omega) (by omega)
  have h₂ := length_encode_bytesField_le 2 e.nonce (by omega) (by omega)
  have h₃ := length_encode_bytesField_le 3 e.message (by omega) (by omega)
  have h₄ := length_encode_bytesField_le 4 e.signature (by omega) (by omega)
  simp only [encodeEnvelope, envelopeFields, encodeFields, List.flatMap_append,
    List.length_append] at h₁ h₂ h₃ h₄ ⊢
  omega

theorem mergeFields_batchFields {es : List SignedEnvelope} (hes : ∀ e ∈ es, e.size ≤ isizeMax)
    (init : List SignedEnvelope) :
    mergeFields mergeBatch ⟨init⟩ (batchFields ⟨es⟩) = .ok ⟨init ++ es⟩ := by
  induction es generalizing init with
  | nil => rw [List.append_nil]; rfl
  | cons e es ih =>
    obtain ⟨he, hrest⟩ := List.forall_mem_cons.mp hes
    have hmerge : mergeBatch ⟨init⟩ ⟨1, .lengthDelimited (encodeEnvelope e)⟩ =
        .ok ⟨init ++ [e]⟩ := by
      have henvelope := merge_encodeEnvelope he (recursionLimit - 1)
      show (mergeInto (fun _ => mergeEnvelope) recursionLimit ⟨[], [], [], []⟩
        (.lengthDelimited (encodeEnvelope e))).map _ = _
      rw [show mergeInto (fun _ => mergeEnvelope) recursionLimit ⟨[], [], [], []⟩
        (.lengthDelimited (encodeEnvelope e)) = .ok e from henvelope]
      rfl
    have htail := ih hrest (init ++ [e])
    rw [List.append_assoc, List.singleton_append] at htail
    rw [batchFields, List.map_cons, mergeFields, hmerge]
    exact htail

/-! ## Sizes -/

/-- A slot is set to the bytes of its field. -/
theorem exists_of_slot {v : Value} {set : Bytes → SignedEnvelope} {e : SignedEnvelope}
    (h : (expectBytes v).map set = .ok e) : ∃ b, v = .lengthDelimited b ∧ set b = e := by
  cases v with
  | lengthDelimited b => exact ⟨b, rfl, Except.ok.inj h⟩
  | varint n => exact absurd h (by simp [expectBytes, Except.map])
  | fixed64 b => exact absurd h (by simp [expectBytes, Except.map])
  | group b => exact absurd h (by simp [expectBytes, Except.map])
  | fixed32 b => exact absurd h (by simp [expectBytes, Except.map])

/-- What each field adds, all of them add together. -/
theorem measure_le_of_mergeFields {α : Type} (merge : α → Field → Except String α) {μ : α → ℕ}
    {ν : Field → ℕ} (hmerge : ∀ a f a', merge a f = .ok a' → μ a' ≤ μ a + ν f) {a a' : α}
    {fs : List Field} (h : mergeFields merge a fs = .ok a') : μ a' ≤ μ a + (fs.map ν).sum := by
  induction fs generalizing a with
  | nil =>
    obtain rfl := Except.ok.inj h
    exact Nat.le_add_right _ _
  | cons f fs ih =>
    rw [mergeFields] at h
    cases hf : merge a f with
    | error err =>
      rw [hf] at h
      exact absurd h (by simp [Except.bind])
    | ok a₁ =>
      rw [hf] at h
      have hhead := hmerge a f a₁ hf
      have htail := ih h
      rw [List.map_cons, List.sum_cons]
      omega

/-- An envelope is put together from the fields of its buffer. -/
theorem fields_of_decodeEnvelope {bytes : Bytes} {e : SignedEnvelope}
    (h : decodeEnvelope bytes = .ok e) :
    ∃ fs, parseFields recursionLimit bytes = some fs ∧
      mergeFields mergeEnvelope ⟨[], [], [], []⟩ fs = .ok e := by
  unfold decodeEnvelope fieldsOf at h
  cases hfs : parseFields recursionLimit bytes with
  | none =>
    rw [hfs] at h
    exact absurd h (by simp [Except.bind])
  | some fs =>
    rw [hfs] at h
    exact ⟨fs, rfl, h⟩

/-- A field replaces one slot of the envelope, so it adds at most its own body. -/
theorem size_le_of_mergeEnvelope {e e' : SignedEnvelope} {f : Field}
    (h : mergeEnvelope e f = .ok e') : e'.size ≤ e.size + f.value.size := by
  unfold mergeEnvelope at h
  split at h
  · obtain ⟨b, hb, rfl⟩ := exists_of_slot h
    simp only [SignedEnvelope.size, hb, Value.size]
    omega
  · obtain ⟨b, hb, rfl⟩ := exists_of_slot h
    simp only [SignedEnvelope.size, hb, Value.size]
    omega
  · obtain ⟨b, hb, rfl⟩ := exists_of_slot h
    simp only [SignedEnvelope.size, hb, Value.size]
    omega
  · obtain ⟨b, hb, rfl⟩ := exists_of_slot h
    simp only [SignedEnvelope.size, hb, Value.size]
    omega
  · obtain rfl := Except.ok.inj h
    exact Nat.le_add_right _ _

theorem size_le_of_decodeEnvelope {bytes : Bytes} {e : SignedEnvelope}
    (h : decodeEnvelope bytes = .ok e) : e.size ≤ bytes.length := by
  obtain ⟨fs, hfs, hmerge⟩ := fields_of_decodeEnvelope h
  have hsize : e.size ≤ (SignedEnvelope.mk [] [] [] []).size + totalSize fs := by
    rw [totalSize]
    exact measure_le_of_mergeFields mergeEnvelope (fun _ _ _ => size_le_of_mergeEnvelope) hmerge
  have htotal := totalSize_le_of_parseFields hfs
  have hempty : (SignedEnvelope.mk [] [] [] []).size = 0 := rfl
  omega

/-- **The generated code is lawful.**  So the laws that the gateway relies on can be met, and
what is proved from them is about something. -/
theorem wire_lawful : wire.Lawful where
  decodeBatch_encodeBatch := by
    intro b hb
    have hvalid : ∀ f ∈ batchFields b, f.Valid := by
      intro f hf
      obtain ⟨e, he, rfl⟩ := List.mem_map.mp hf
      exact ⟨Nat.one_pos, Nat.one_lt_two_pow (by omega), length_encodeEnvelope_lt (hb e he)⟩
    have hmerge := mergeFields_batchFields hb []
    rw [List.nil_append] at hmerge
    change decodeBatch (encodeBatch b) = .ok b
    rw [decodeBatch, encodeBatch, fieldsOf_encodeFields hvalid]
    exact hmerge
  size_le_of_decodeEnvelope := size_le_of_decodeEnvelope

theorem wire_concatenates : wire.Concatenates := by
  intro es es'
  change encodeBatch ⟨es ++ es'⟩ = encodeBatch ⟨es⟩ ++ encodeBatch ⟨es'⟩
  simp only [encodeBatch, batchFields, encodeFields, List.map_append, List.flatMap_append]

end Wire
end Protocol
end Robins
