import Robins.Lib.Scale
import Robins.Basic

/-!
# Encrypted messages

What is stored on the chain instead of a text that is not for everyone: the algorithm, the public
key of the sender, the nonce and the ciphertext, in SCALE.  The scheme of the keys is not part of
it, and neither is the receiver.

A message is read from the front of a byte string, and what follows it is left to the caller.
Reading is exact: a message is read from its encoding and from nothing else
(`decode_eq_some_iff`).  So whether data is an encrypted message is a property of the data, and the
modules that have to decide it speak of encodings rather than of the decoder.
-/

namespace Robins
namespace Crypto

/-! ## Algorithms and schemes -/

inductive EncryptionAlgorithm where
  | xChaCha20Poly1305
  | aesGcm256
  | chaCha20Poly1305
  deriving DecidableEq, Repr

namespace EncryptionAlgorithm

/-- The HKDF info string, which separates the keys of different algorithms. -/
def infoString : EncryptionAlgorithm → String
  | xChaCha20Poly1305 => "xchacha20poly1305"
  | aesGcm256 => "aesgcm256"
  | chaCha20Poly1305 => "chacha20poly1305"

def nonceSize : EncryptionAlgorithm → ℕ
  | xChaCha20Poly1305 => 24
  | aesGcm256 => 12
  | chaCha20Poly1305 => 12

/-- The algorithm of this name.  Names are compared in lower case; only ASCII letters have
one of the letters of these names as their lower case. -/
def fromStr (s : String) : Except String EncryptionAlgorithm :=
  match s.toLower with
  | "xchacha20" | "xchacha20poly1305" | "xchacha20-poly1305" => .ok xChaCha20Poly1305
  | "aesgcm256" | "aes-256-gcm" | "aes256gcm" | "aesgcm" => .ok aesGcm256
  | "chacha20" | "chacha20poly1305" | "chacha20-poly1305" => .ok chaCha20Poly1305
  | _ => .error ("Unknown encryption algorithm: '" ++ s ++
      "'. Supported: xchacha20, aesgcm256, chacha20")

def index : EncryptionAlgorithm → UInt8
  | xChaCha20Poly1305 => 0
  | aesGcm256 => 1
  | chaCha20Poly1305 => 2

/-- The variant of this index. -/
def ofIndex : UInt8 → Option EncryptionAlgorithm
  | 0 => some xChaCha20Poly1305
  | 1 => some aesGcm256
  | 2 => some chaCha20Poly1305
  | _ => none

theorem ofIndex_eq_some_iff {b : UInt8} {algorithm : EncryptionAlgorithm} :
    ofIndex b = some algorithm ↔ b = algorithm.index := by
  constructor
  · intro h
    unfold ofIndex at h
    split at h
    · rw [← Option.some.inj h]; rfl
    · rw [← Option.some.inj h]; rfl
    · rw [← Option.some.inj h]; rfl
    · exact absurd h (by simp)
  · rintro rfl
    cases algorithm <;> rfl

end EncryptionAlgorithm

inductive CryptoScheme where
  | sr25519
  | ed25519
  deriving DecidableEq, Repr

def CryptoScheme.name : CryptoScheme → String
  | sr25519 => "SR25519"
  | ed25519 => "ED25519"

/-- The scheme of this name. -/
def CryptoScheme.fromStr (s : String) : Except String CryptoScheme :=
  match s.toLower with
  | "sr25519" | "sr" => .ok sr25519
  | "ed25519" | "ed" => .ok ed25519
  | _ => .error ("Invalid cryptographic scheme: '" ++ s ++ "'. Supported: sr25519, ed25519")

/-! ## Messages -/

/-- Encrypted message format stored on-chain. -/
inductive EncryptedMessage where
  | v1 (algorithm : EncryptionAlgorithm) (sender : FixedBytes 32) (nonce ciphertext : Bytes)
  deriving DecidableEq

namespace EncryptedMessage

/-- The public key of the sender (`from`). -/
def sender : EncryptedMessage → FixedBytes 32
  | v1 _ sender _ _ => sender

/-- The SCALE encoding: the index of the version, then the fields. -/
def encode : EncryptedMessage → Bytes
  | v1 algorithm sender nonce ciphertext =>
    0 :: algorithm.index :: (sender.1 ++ (Scale.encodeBytes nonce ++ Scale.encodeBytes ciphertext))

/-- Read a message from the front. -/
def decode (b : Bytes) : Option (EncryptedMessage × Bytes) :=
  match b with
  | 0 :: index :: b =>
    (EncryptionAlgorithm.ofIndex index).bind fun algorithm =>
    (Scale.takeBytes 32 b).bind fun p =>
    (FixedBytes.ofSlice 32 p.1).bind fun sender =>
    (Scale.decodeBytes p.2).bind fun q =>
    (Scale.decodeBytes q.2).map fun r => (v1 algorithm sender q.1 r.1, r.2)
  | _ => none

/-- The lengths fit their 32 bits. -/
def Fits : EncryptedMessage → Prop
  | v1 _ _ nonce ciphertext => nonce.length < 2 ^ 32 ∧ ciphertext.length < 2 ^ 32

/-- **A message is read exactly from its encoding**, whatever follows. -/
theorem decode_eq_some_iff {b rest : Bytes} {message : EncryptedMessage} :
    decode b = some (message, rest) ↔ message.Fits ∧ b = message.encode ++ rest := by
  constructor
  · intro h
    unfold decode at h
    split at h
    · next index b =>
      obtain ⟨algorithm, hindex, h⟩ := Option.bind_eq_some_iff.mp h
      obtain ⟨⟨key, b₁⟩, htake, h⟩ := Option.bind_eq_some_iff.mp h
      obtain ⟨sender, hsender, h⟩ := Option.bind_eq_some_iff.mp h
      obtain ⟨⟨nonce, b₂⟩, hnonce, h⟩ := Option.bind_eq_some_iff.mp h
      obtain ⟨⟨ciphertext, b₃⟩, hciphertext, heq⟩ := Option.map_eq_some_iff.mp h
      obtain ⟨rfl, rfl⟩ := Prod.mk.inj heq
      obtain rfl := EncryptionAlgorithm.ofIndex_eq_some_iff.mp hindex
      obtain ⟨-, rfl⟩ := Scale.takeBytes_eq_some_iff.mp htake
      obtain rfl := FixedBytes.ofSlice_eq_some_iff.mp hsender
      obtain ⟨hfits, rfl⟩ := Scale.decodeBytes_eq_some_iff.mp hnonce
      obtain ⟨hfits', rfl⟩ := Scale.decodeBytes_eq_some_iff.mp hciphertext
      refine ⟨⟨hfits, hfits'⟩, ?_⟩
      simp only [encode, List.cons_append, List.append_assoc]
    · exact absurd h (by simp)
  · rintro ⟨hfits, rfl⟩
    obtain ⟨algorithm, sender, nonce, ciphertext⟩ := message
    obtain ⟨hnonce, hciphertext⟩ := hfits
    simp only [encode, List.cons_append, List.append_assoc, decode]
    rw [EncryptionAlgorithm.ofIndex_eq_some_iff.mpr rfl, Option.bind_some,
      Scale.takeBytes_eq_some_iff.mpr ⟨sender.2, rfl⟩, Option.bind_some,
      FixedBytes.ofSlice_eq_some_iff.mpr rfl, Option.bind_some,
      Scale.decodeBytes_eq_some_iff.mpr ⟨hnonce, rfl⟩, Option.bind_some,
      Scale.decodeBytes_eq_some_iff.mpr ⟨hciphertext, rfl⟩, Option.map_some]

/-- Nothing else is taken for a message. -/
theorem decode_eq_none {b : Bytes} (h : ∀ message rest, b ≠ encode message ++ rest) :
    decode b = none := by
  by_contra hsome
  obtain ⟨⟨message, rest⟩, hdecode⟩ := Option.ne_none_iff_exists'.mp hsome
  exact h message rest (decode_eq_some_iff.mp hdecode).2

end EncryptedMessage

end Crypto
end Robins
