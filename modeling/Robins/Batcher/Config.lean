import Robins.BatchStore.Model

/-!
# Batcher configuration and compression

The zstd compressor is a library.  It enters as a pair of functions that may
fail, and the only thing asked of it is that what it compressed it decompresses.
-/

namespace Robins
namespace Batcher

open BatchStore

inductive Compression where
  | none
  | zstd
  deriving DecidableEq, Repr

/-- The lowercase name of a compression. -/
def Compression.asStr : Compression → String
  | .none => "none"
  | .zstd => "zstd"

/-- The zstd library, with the text of an I/O error. -/
structure Zstd where
  /-- `zstd::stream::encode_all` at the default level. -/
  encodeAll : Bytes → Except String Bytes
  /-- `zstd::stream::decode_all` -/
  decodeAll : Bytes → Except String Bytes

/-- Decompression is a left inverse of compression. -/
def Zstd.Lawful (zstd : Zstd) : Prop :=
  ∀ {b c : Bytes}, zstd.encodeAll b = .ok c → zstd.decodeAll c = .ok b

/-- A compressor that never fails. -/
def Zstd.Total (zstd : Zstd) : Prop := ∀ b, ∃ c, zstd.encodeAll b = .ok c

/-- Apply a compression to a serialized batch. -/
def Compression.compress (zstd : Zstd) (serialized : Bytes) :
    Compression → Except String Bytes
  | .none => .ok serialized
  | .zstd => zstd.encodeAll serialized

/-- Invert `compress`. -/
def Compression.decompress (zstd : Zstd) (payload : Bytes) : Compression → Except String Bytes
  | .none => .ok payload
  | .zstd => zstd.decodeAll payload

theorem Compression.exists_compress {zstd : Zstd} (h : zstd.Total) (c : Compression)
    (serialized : Bytes) : ∃ payload, c.compress zstd serialized = .ok payload := by
  cases c with
  | none => exact ⟨serialized, rfl⟩
  | zstd => exact h serialized

theorem Compression.decompress_compress {zstd : Zstd} (h : zstd.Lawful) {c : Compression}
    {serialized payload : Bytes} (hc : c.compress zstd serialized = .ok payload) :
    c.decompress zstd payload = .ok serialized := by
  cases c with
  | none =>
    obtain rfl := Except.ok.inj hc
    rfl
  | zstd => exact h hc

/-- The CPS payload limit, `libcps::MAX_PAYLOAD_SIZE`. -/
def maxPayloadSize : ℕ := 8192

/-- Batching limits and payload format. -/
structure BatcherConfig where
  maxBatchAgeSecs : ℕ
  maxBatchSize : ℕ
  maxMessages : ℕ
  compression : Compression
  deriving DecidableEq, Repr

/-- The configuration used where none is given. -/
def BatcherConfig.default : BatcherConfig where
  maxBatchAgeSecs := 30
  maxBatchSize := maxPayloadSize
  maxMessages := 100
  compression := .zstd

def BatcherConfig.maxBatchAge (config : BatcherConfig) : Duration :=
  Duration.ofSecs config.maxBatchAgeSecs

/-- The checks on a configuration, with the text of the first that fails. -/
def BatcherConfig.validate (config : BatcherConfig) : Except String Unit :=
  if config.maxBatchAgeSecs = 0 then
    .error "batcher.max_batch_age_secs must be non-zero"
  else if config.maxMessages = 0 then
    .error "batcher.max_messages must be non-zero"
  else if config.maxBatchSize = 0 then
    .error "batcher.max_batch_size must be non-zero"
  else if config.maxBatchSize > maxPayloadSize then
    .error ("batcher.max_batch_size must not exceed the CPS payload limit of " ++
      toString maxPayloadSize ++ " bytes")
  else
    .ok ()

/-- A configuration that passes its checks. -/
def BatcherConfig.Valid (config : BatcherConfig) : Prop := config.validate = .ok ()

instance (config : BatcherConfig) : Decidable config.Valid :=
  match h : config.validate with
  | .ok () => isTrue h
  | .error _ => isFalse fun hv => absurd (h.symm.trans hv) (by simp)

/-- Protobuf message every batch payload decodes to. -/
def payloadSchema : String := "SignedEnvelopeBatch"

/-- Version of that message. -/
def payloadSchemaVersion : UInt32 := 1

/-- Serialization format of the payload. -/
def payloadEncoding : String := "protobuf"

/-- How payloads produced under a configuration must be interpreted. -/
def BatcherConfig.formatDescriptor (config : BatcherConfig) : FormatDescriptor where
  schema := payloadSchema
  schemaVersion := payloadSchemaVersion
  encoding := payloadEncoding
  compression := config.compression.asStr

theorem BatcherConfig.Valid.maxMessages_ne_zero {config : BatcherConfig} (h : config.Valid) :
    config.maxMessages ≠ 0 := by
  intro hzero
  unfold Valid validate at h
  rw [if_pos hzero] at h
  split at h <;> exact absurd h (by simp)

theorem BatcherConfig.Valid.maxBatchAgeSecs_ne_zero {config : BatcherConfig} (h : config.Valid) :
    config.maxBatchAgeSecs ≠ 0 := by
  intro hzero
  unfold Valid validate at h
  rw [if_pos hzero] at h
  exact absurd h (by simp)

theorem BatcherConfig.default_valid : BatcherConfig.default.Valid := rfl

end Batcher
end Robins
