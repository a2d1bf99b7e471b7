import Robins.Batcher.Conservation
import Robins.Lib.Bisection

/-!
# How many batches packing makes

Packing is meant to make the fewest batches that fit.  It halves what does not fit, so it cuts in
the middle of a run whether or not that is where a cut is needed: two small messages followed by
two big ones may go into two batches, the first with three messages, and packing makes three.

When every single message fits, the batches are the parts of a bisection, and `Bisection` compares
a bisection with all other partitions of a list into fitting parts: it has the fewest parts exactly
if every run that is halved has some fewest partition with a cut in its middle.  Here this is read
for batches, for any codecs (`pack_fewest_iff`).  Nothing is asked of the sizes of batches; with
compression a run may fit although a part of it does not.

The counterexample has to be one in which sizes are those of a real compressor, so the messages are
short enough for zstd to store them raw, and the sizes are those of raw frames.
-/

namespace Robins
namespace Batcher

open BatchStore Protocol Bisection

variable {codecs : Codecs} {config : BatcherConfig}

/-- The final payload of these messages is within the limit. -/
def Fits (codecs : Codecs) (config : BatcherConfig) (messages : List Decoded) : Prop :=
  ∃ serialized payload, encode codecs config messages = .ok (serialized, payload) ∧
    payload.length ≤ config.maxBatchSize

theorem fits_iff_of_encode {messages : List Decoded} {serialized : ℕ} {payload : Bytes}
    (h : encode codecs config messages = .ok (serialized, payload)) :
    Fits codecs config messages ↔ payload.length ≤ config.maxBatchSize := by
  constructor
  · rintro ⟨serialized', payload', h', hle⟩
    obtain ⟨-, rfl⟩ := Prod.mk.inj (Except.ok.inj (h.symm.trans h'))
    exact hle
  · intro hle
    exact ⟨serialized, payload, h, hle⟩

/-- **The batches are the parts of a bisection**, when every message fits on its own. -/
theorem bisects_of_packing {messages : List Decoded} {out out' : Packed}
    (hsingle : ∀ m ∈ messages, Fits codecs config [m])
    (h : Packing codecs config messages out out') :
    ∃ parts, Bisects (Fits codecs config) messages parts ∧
      out'.batches.length = out.batches.length + parts.length := by
  induction h with
  | @whole messages out serialized payload hne henc hle =>
    refine ⟨[messages], .whole hne ((fits_iff_of_encode henc).mpr hle), ?_⟩
    dsimp only
    rw [List.length_append, List.length_singleton, List.length_singleton]
  | reject henc hgt =>
    -- a message that fits on its own is not rejected
    exact absurd ((fits_iff_of_encode henc).mp (hsingle _ List.mem_cons_self)) hgt
  | @halves messages out out₁ out' serialized payload henc hgt hlen hleft hright ih₁ ih₂ =>
    obtain ⟨parts₁, hbisects₁, hcount₁⟩ := ih₁ fun m hm => hsingle m (List.mem_of_mem_take hm)
    obtain ⟨parts₂, hbisects₂, hcount₂⟩ := ih₂ fun m hm => hsingle m (List.mem_of_mem_drop hm)
    have hnot : ¬ Fits codecs config messages := fun hfits =>
      hgt ((fits_iff_of_encode henc).mp hfits)
    refine ⟨parts₁ ++ parts₂, hbisects₁.halves hnot hlen hbisects₂, ?_⟩
    dsimp only at hcount₁
    rw [List.length_append]
    omega

theorem bisects_of_pack {messages : List Decoded} {packed : Packed}
    (hsingle : ∀ m ∈ messages, Fits codecs config [m])
    (h : pack codecs config messages = .ok packed) :
    ∃ parts, Bisects (Fits codecs config) messages parts ∧
      packed.batches.length = parts.length := by
  unfold pack at h
  split at h
  · next hnil =>
    obtain rfl := Except.ok.inj h
    rw [hnil]
    exact ⟨[], .nil, rfl⟩
  · next hne =>
    obtain ⟨parts, hbisects, hcount⟩ :=
      bisects_of_packing hsingle (packing_of_packInto hne h)
    refine ⟨parts, hbisects, hcount.trans ?_⟩
    rw [Packed.default, List.length_nil, Nat.zero_add]

/-- **When packing makes the fewest batches**: exactly when every run it halves has some fewest
partition with a cut in the middle.  The condition is about which runs fit, not about what `pack`
does with them. -/
theorem pack_fewest_iff (codecs : Codecs) (config : BatcherConfig) (messages : List Decoded)
    (packed : Packed) (hsingle : ∀ m ∈ messages, Fits codecs config [m])
    (h : pack codecs config messages = .ok packed) :
    (∀ parts, IsPartition (Fits codecs config) messages parts →
      packed.batches.length ≤ parts.length) ↔ MiddleCuts (Fits codecs config) messages := by
  obtain ⟨parts, hbisects, hcount⟩ := bisects_of_pack hsingle h
  rw [← hbisects.fewest_iff, hcount]
  exact ⟨fun hle => ⟨hbisects.isPartition, hle⟩, fun hfewest => hfewest.le⟩

/-! ## Two small messages and two big ones -/

/-- A zstd frame with one raw block, as the compressor writes for an input too short to
gain from compression. -/
def rawFrame (b : Bytes) : Bytes :=
  let header := b.length * 8 + 1
  [0x28, 0xb5, 0x2f, 0xfd, 0x00, 0x58, UInt8.ofNat header, UInt8.ofNat (header / 256),
    UInt8.ofNat (header / 65536)] ++ b

/-- A compressor that writes raw frames. -/
def rawCodecs : Codecs := ⟨Wire.wire, ⟨fun b => .ok (rawFrame b), fun c => .ok (c.drop 9)⟩⟩

/-- Compressed batches of at most thirty-one bytes. -/
def crowdedConfig : BatcherConfig := ⟨30, 31, 8, .zstd⟩

/-- A decoded message with so many bytes in its measurement. -/
def decodedOf (id : MessageId) (bytes : Bytes) : Decoded := ⟨id, ⟨[], [], bytes, []⟩⟩

/-- Two small messages, then two big ones. -/
def crowdedMessages : List Decoded :=
  [decodedOf 0 [1], decodedOf 1 [2], decodedOf 2 [1, 2, 3, 4, 5, 6, 7, 8],
    decodedOf 3 [8, 7, 6, 5, 4, 3, 2, 1]]

/-- The first three messages fit together, and so does the last. -/
def crowdedParts : List (List Decoded) := [crowdedMessages.take 3, crowdedMessages.drop 3]

theorem fits_of_decide {messages : List Decoded}
    (h : (match encode codecs config messages with
      | .ok p => decide (p.2.length ≤ config.maxBatchSize)
      | .error _ => false) = true) : Fits codecs config messages := by
  split at h
  · next p henc => exact ⟨p.1, p.2, henc, of_decide_eq_true h⟩
  · exact absurd h (by simp)

theorem crowdedMessages_fit : ∀ m ∈ crowdedMessages, Fits rawCodecs crowdedConfig [m] := by
  intro m hm
  simp only [crowdedMessages, List.mem_cons, List.not_mem_nil, or_false] at hm
  rcases hm with rfl | rfl | rfl | rfl
  · exact fits_of_decide (by decide +kernel)
  · exact fits_of_decide (by decide +kernel)
  · exact fits_of_decide (by decide +kernel)
  · exact fits_of_decide (by decide +kernel)

theorem crowdedParts_isPartition :
    IsPartition (Fits rawCodecs crowdedConfig) crowdedMessages crowdedParts where
  flatten_eq := rfl
  ne_nil := by decide
  fits := by
    intro part hpart
    simp only [crowdedParts, List.mem_cons, List.not_mem_nil, or_false] at hpart
    rcases hpart with rfl | rfl
    · exact fits_of_decide (by decide +kernel)
    · exact fits_of_decide (by decide +kernel)

theorem pack_crowdedMessages :
    ∃ packed, pack rawCodecs crowdedConfig crowdedMessages = .ok packed ∧
      packed.batches.length = 3 := by
  have hshown : (match pack rawCodecs crowdedConfig crowdedMessages with
      | .ok packed => packed.batches.length
      | .error _ => 0) = 3 := by
    decide +kernel
  split at hshown
  · next packed hpack => exact ⟨packed, hpack, hshown⟩
  · exact absurd hshown (by simp)

/-- Packing the small and the big messages makes three batches where two are enough. -/
theorem pack_not_fewest :
    ¬ ∀ (codecs : Codecs) (config : BatcherConfig) (messages : List Decoded) (packed : Packed),
      (∀ m ∈ messages, Fits codecs config [m]) → pack codecs config messages = .ok packed →
        ∀ parts, IsPartition (Fits codecs config) messages parts →
          packed.batches.length ≤ parts.length := by
  intro hclaim
  obtain ⟨packed, hpack, hcount⟩ := pack_crowdedMessages
  have hle := hclaim rawCodecs crowdedConfig crowdedMessages packed crowdedMessages_fit hpack
    crowdedParts crowdedParts_isPartition
  have hparts : crowdedParts.length = 2 := rfl
  omega

theorem pack_fewest_iff_crowdedMessages :
    ∃ packed, pack rawCodecs crowdedConfig crowdedMessages = .ok packed ∧
      ((∀ parts, IsPartition (Fits rawCodecs crowdedConfig) crowdedMessages parts →
        packed.batches.length ≤ parts.length) ↔
          MiddleCuts (Fits rawCodecs crowdedConfig) crowdedMessages) := by
  obtain ⟨packed, hpack, -⟩ := pack_crowdedMessages
  exact ⟨packed, hpack, pack_fewest_iff rawCodecs crowdedConfig crowdedMessages packed
    crowdedMessages_fit hpack⟩

end Batcher
end Robins
