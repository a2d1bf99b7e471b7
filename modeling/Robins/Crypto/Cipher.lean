import Mathlib.Data.List.Basic
import Robins.Lib.Hex
import Robins.Lib.Utf8
import Robins.Crypto.Message

/-!
# Encryption with a keypair

Two parties derive the same secret, each from their own keypair and the public key of the other;
HKDF makes a key for the algorithm of it, and an AEAD encrypts under that key with a fresh nonce.
The message names the sender, so the receiver can derive the secret, but not the scheme: the key of
the sender is read in the scheme of the receiver.

## What other libraries compute

The curves, the hashes and the ciphers are those of other libraries, and stand here as parameters.
What is relied on is said in `Crates.Lawful`: the agreement is symmetric in each scheme, and a
ciphertext opens under its own key and under no other.  With these laws a receiver decrypts what
was encrypted for it (`Signer.decrypt_encrypt`), and who has come to another key does not
(`Signer.decrypt_wrong_key`).

## What they compute of given inputs

None of them can be run here.  But what they make of given inputs can be listed, and crates made of
such a list are lawful if the list is in order (`Vectors.lawful`).  The last section lists what they
make of two accounts that everybody knows.
-/

namespace Robins

def FixedBytes.firstHalf (b : FixedBytes 64) : FixedBytes 32 :=
  ⟨b.1.take 32, List.length_take_of_le (by rw [b.2]; decide)⟩

/-- Change one byte of an array. -/
def FixedBytes.modify {n : ℕ} (b : FixedBytes n) (index : ℕ) (f : UInt8 → UInt8) :
    FixedBytes n :=
  ⟨b.1.modify index f, by rw [List.length_modify, b.2]⟩

namespace Crypto

/-! ## What other libraries compute -/

/-- A keypair: the public key, and the first 32 bytes of the raw secret. -/
structure KeyPair where
  publicKey : FixedBytes 32
  secret : FixedBytes 32
  deriving DecidableEq

/-- The functions of other libraries that key agreement and encryption are made of. -/
structure Crates where
  /-- `S::Pair::from_string`, without a password. -/
  pairFromString : CryptoScheme → String → Except String KeyPair
  sha512 : Bytes → FixedBytes 64
  /-- A Ristretto255 point, decompressed, times a scalar, compressed; none if the bytes are
  no point. -/
  ristrettoMul : (scalar point : FixedBytes 32) → Option (FixedBytes 32)
  /-- An Edwards point, decompressed, in Montgomery form; none if the bytes are no point. -/
  toMontgomery : FixedBytes 32 → Option (FixedBytes 32)
  x25519 : (secret point : FixedBytes 32) → FixedBytes 32
  /-- HKDF-SHA256 with 32 bytes of output. -/
  hkdf : (salt key info : Bytes) → FixedBytes 32
  aeadEncrypt : EncryptionAlgorithm → (key : FixedBytes 32) → (nonce plaintext : Bytes) →
    Except String Bytes
  aeadDecrypt : EncryptionAlgorithm → (key : FixedBytes 32) → (nonce ciphertext : Bytes) →
    Except String Bytes

variable (crates : Crates)

/-! ## Key agreement -/

/-- Clamp the scalar of X25519. -/
def clamp (scalar : FixedBytes 32) : FixedBytes 32 :=
  ((scalar.modify 0 (· &&& 248)).modify 31 (· &&& 127)).modify 31 (· ||| 64)

/-- Scheme-specific ECDH from the secret and the other party's public key. -/
def deriveShared (scheme : CryptoScheme) (secret receiverPublic : FixedBytes 32) :
    Except String (FixedBytes 32) :=
  match scheme with
  | .sr25519 =>
    match crates.ristrettoMul secret receiverPublic with
    | none => .error "Failed to decompress Ristretto255 public key"
    | some shared =>
      .ok (crates.sha512 (Utf8.encode "robonomics-cps-ecdh" ++ shared.1)).firstHalf
  | .ed25519 =>
    let scalar := clamp (crates.sha512 secret.1).firstHalf
    match crates.toMontgomery receiverPublic with
    | none => .error "Failed to decompress ED25519 public key"
    | some point => .ok (crates.x25519 scalar point)

/-- HKDF salt for key derivation. -/
def hkdfSalt : Bytes := Utf8.encode "robonomics-network"

/-- The key for an algorithm, from a shared secret. -/
def encryptionKey (shared : FixedBytes 32) (algorithm : EncryptionAlgorithm) : FixedBytes 32 :=
  crates.hkdf hkdfSalt shared.1 (Utf8.encode algorithm.infoString)

/-! ## Encryption -/

/-- A CPS account identity of a scheme. -/
structure Signer where
  scheme : CryptoScheme
  pair : KeyPair
  deriving DecidableEq

def Signer.fromSuri (scheme : CryptoScheme) (suri : String) : Except String Signer :=
  match crates.pairFromString scheme suri with
  | .ok pair => .ok ⟨scheme, pair⟩
  | .error error =>
    .error ("crypto error: failed to parse " ++ scheme.name ++ " keypair: " ++ error)

/-- How messages about an algorithm call it. -/
def EncryptionAlgorithm.label : EncryptionAlgorithm → String
  | xChaCha20Poly1305 => "XChaCha20"
  | aesGcm256 => "AES-GCM"
  | chaCha20Poly1305 => "ChaCha20"

/-- An error with what was tried. -/
def mapError {α : Type} (context : String) : Except String α → Except String α
  | .ok a => .ok a
  | .error error => .error (context ++ error)

@[simp] theorem mapError_eq_ok_iff {α : Type} {context : String} {x : Except String α} {a : α} :
    mapError context x = .ok a ↔ x = .ok a := by
  cases x <;> simp [mapError]

/-- Encrypt data for a receiver, with this nonce. -/
def Signer.encrypt (signer : Signer) (plaintext : Bytes) (receiverPublic : FixedBytes 32)
    (algorithm : EncryptionAlgorithm) (nonce : FixedBytes algorithm.nonceSize) :
    Except String EncryptedMessage := do
  let shared ← deriveShared crates signer.scheme signer.pair.secret receiverPublic
  let key := encryptionKey crates shared algorithm
  let ciphertext ← mapError (algorithm.label ++ " encryption failed: ")
    (crates.aeadEncrypt algorithm key nonce.1 plaintext)
  return .v1 algorithm signer.pair.publicKey nonce.1 ciphertext

/-- Decrypt a message, from an expected sender if there is one. -/
def Signer.decrypt (signer : Signer) (message : EncryptedMessage)
    (expectedSender : Option (FixedBytes 32)) : Except String Bytes :=
  match message with
  | .v1 algorithm sender nonce ciphertext => do
    if expectedSender.any (· ≠ sender) then
      throw "Sender public key mismatch: message from unexpected sender"
    let shared ← deriveShared crates signer.scheme signer.pair.secret sender
    let key := encryptionKey crates shared algorithm
    if nonce.length ≠ algorithm.nonceSize then
      throw ("Invalid " ++ algorithm.label ++ " nonce length: expected " ++
        toString algorithm.nonceSize ++ " bytes")
    mapError (algorithm.label ++ " decryption failed: ")
      (crates.aeadDecrypt algorithm key nonce ciphertext)

/-! ## What is relied on -/

/-- Key agreement is symmetric in each scheme, and a ciphertext opens under its own key and
under no other. -/
structure Crates.Lawful : Prop where
  agreement {scheme : CryptoScheme} {suri suri' : String} {pair pair' : KeyPair}
    (hpair : crates.pairFromString scheme suri = .ok pair)
    (hpair' : crates.pairFromString scheme suri' = .ok pair') :
    deriveShared crates scheme pair.secret pair'.publicKey =
      deriveShared crates scheme pair'.secret pair.publicKey
  decrypt_encrypt {algorithm : EncryptionAlgorithm} {key : FixedBytes 32}
    {nonce plaintext ciphertext : Bytes}
    (hencrypt : crates.aeadEncrypt algorithm key nonce plaintext = .ok ciphertext) :
    crates.aeadDecrypt algorithm key nonce ciphertext = .ok plaintext
  decrypt_wrong {algorithm : EncryptionAlgorithm} {key key' : FixedBytes 32}
    {nonce plaintext ciphertext : Bytes}
    (hencrypt : crates.aeadEncrypt algorithm key nonce plaintext = .ok ciphertext)
    (hkey : key' ≠ key) : ∃ error, crates.aeadDecrypt algorithm key' nonce ciphertext = .error error

/-- Key agreement is symmetric in each scheme. -/
def Crates.Agrees : Prop :=
  ∀ {scheme : CryptoScheme} {suri suri' : String} {pair pair' : KeyPair},
    crates.pairFromString scheme suri = .ok pair →
    crates.pairFromString scheme suri' = .ok pair' →
    deriveShared crates scheme pair.secret pair'.publicKey =
      deriveShared crates scheme pair'.secret pair.publicKey

/-- A ciphertext opens under its own key and nonce. -/
def Crates.Inverts : Prop :=
  ∀ {algorithm : EncryptionAlgorithm} {key : FixedBytes 32} {nonce plaintext ciphertext : Bytes},
    crates.aeadEncrypt algorithm key nonce plaintext = .ok ciphertext →
    crates.aeadDecrypt algorithm key nonce ciphertext = .ok plaintext

theorem Crates.Lawful.agrees {crates : Crates} (h : crates.Lawful) : crates.Agrees := h.agreement

theorem Crates.Lawful.inverts {crates : Crates} (h : crates.Lawful) : crates.Inverts :=
  h.decrypt_encrypt

section

variable {crates} {signer receiver : Signer} {plaintext : Bytes} {receiverPublic : FixedBytes 32}
  {algorithm : EncryptionAlgorithm} {nonce : FixedBytes algorithm.nonceSize}
  {message : EncryptedMessage}

theorem Signer.fromSuri_eq_ok_iff {scheme : CryptoScheme} {suri : String} :
    Signer.fromSuri crates scheme suri = .ok signer ↔
      signer.scheme = scheme ∧ crates.pairFromString scheme suri = .ok signer.pair := by
  unfold Signer.fromSuri
  cases hpair : crates.pairFromString scheme suri with
  | error error => simp
  | ok pair =>
    constructor
    · intro h
      obtain rfl := Except.ok.inj h
      exact ⟨rfl, rfl⟩
    · rintro ⟨rfl, h⟩
      rw [Except.ok.inj h]

theorem Signer.encrypt_eq_ok_iff :
    signer.encrypt crates plaintext receiverPublic algorithm nonce = .ok message ↔
      ∃ shared ciphertext,
        deriveShared crates signer.scheme signer.pair.secret receiverPublic = .ok shared ∧
        crates.aeadEncrypt algorithm (encryptionKey crates shared algorithm) nonce.1 plaintext =
          .ok ciphertext ∧
        message = .v1 algorithm signer.pair.publicKey nonce.1 ciphertext := by
  unfold Signer.encrypt
  cases deriveShared crates signer.scheme signer.pair.secret receiverPublic with
  | error error => simp [bind, Except.bind]
  | ok shared =>
    cases hencrypt : crates.aeadEncrypt algorithm (encryptionKey crates shared algorithm) nonce.1
        plaintext with
    | error error => simp [bind, Except.bind, mapError, hencrypt]
    | ok ciphertext =>
      simp [bind, Except.bind, mapError, hencrypt, pure, Except.pure, eq_comm]

/-- Without an expected sender, a message with a nonce of the right length is decrypted under
the key agreed with its sender. -/
theorem Signer.decrypt_eq {sender : FixedBytes 32} {ciphertext : Bytes} :
    receiver.decrypt crates (.v1 algorithm sender nonce.1 ciphertext) none =
      (deriveShared crates receiver.scheme receiver.pair.secret sender).bind fun shared =>
        mapError (algorithm.label ++ " decryption failed: ")
          (crates.aeadDecrypt algorithm (encryptionKey crates shared algorithm) nonce.1
            ciphertext) := by
  unfold Signer.decrypt
  cases hshared : deriveShared crates receiver.scheme receiver.pair.secret sender <;>
    simp [bind, Except.bind, nonce.2, hshared]

/-- A nonce of the wrong length is refused, whatever the keys. -/
theorem Signer.decrypt_of_nonce_length {sender : FixedBytes 32} {nonce ciphertext : Bytes}
    (expectedSender : Option (FixedBytes 32)) (hnonce : nonce.length ≠ algorithm.nonceSize) :
    ∃ error, receiver.decrypt crates (.v1 algorithm sender nonce ciphertext) expectedSender =
      .error error := by
  unfold Signer.decrypt
  cases hexpected : expectedSender.any (fun expected => !decide (expected = sender)) with
  | true =>
    refine ⟨"Sender public key mismatch: message from unexpected sender", ?_⟩
    simp [bind, Except.bind, hexpected, throw, throwThe, MonadExceptOf.throw]
  | false =>
    cases hshared : deriveShared crates receiver.scheme receiver.pair.secret sender with
    | error error => exact ⟨error, by simp [bind, Except.bind, hexpected, hshared]⟩
    | ok shared =>
      refine ⟨"Invalid " ++ algorithm.label ++ " nonce length: expected " ++
        toString algorithm.nonceSize ++ " bytes", ?_⟩
      simp [bind, Except.bind, hexpected, hshared, hnonce, throw, throwThe, MonadExceptOf.throw]

/-- With an expected sender, only a message that names it is decrypted. -/
theorem Signer.sender_of_decrypt {sender expected : FixedBytes 32} {nonce ciphertext : Bytes}
    (hdecrypt : receiver.decrypt crates (.v1 algorithm sender nonce ciphertext) (some expected) =
      .ok plaintext) : expected = sender := by
  by_contra hne
  unfold Signer.decrypt at hdecrypt
  simp [bind, Except.bind, hne, throw, throwThe, MonadExceptOf.throw] at hdecrypt

/-- **Round trip.**  In one scheme, the receiver decrypts what was encrypted for it. -/
theorem Signer.decrypt_encrypt (hagrees : crates.Agrees) (hinverts : crates.Inverts)
    {scheme : CryptoScheme} {suri suri' : String}
    (hsigner : Signer.fromSuri crates scheme suri = .ok signer)
    (hreceiver : Signer.fromSuri crates scheme suri' = .ok receiver)
    (hencrypt : signer.encrypt crates plaintext receiver.pair.publicKey algorithm nonce =
      .ok message) :
    receiver.decrypt crates message none = .ok plaintext := by
  obtain ⟨rfl, hpair⟩ := Signer.fromSuri_eq_ok_iff.mp hsigner
  obtain ⟨hscheme, hpair'⟩ := Signer.fromSuri_eq_ok_iff.mp hreceiver
  obtain ⟨shared, ciphertext, hshared, haead, rfl⟩ := Signer.encrypt_eq_ok_iff.mp hencrypt
  have hagreed : deriveShared crates receiver.scheme receiver.pair.secret signer.pair.publicKey =
      .ok shared := by
    rw [hscheme, ← hagrees hpair hpair', hshared]
  rw [Signer.decrypt_eq, hagreed]
  exact mapError_eq_ok_iff.mpr (hinverts haead)

/-- Who has come to another key does not decrypt it. -/
theorem Signer.decrypt_wrong_key (hlawful : crates.Lawful) {shared : FixedBytes 32}
    {ciphertext : Bytes}
    (hencrypt : crates.aeadEncrypt algorithm (encryptionKey crates shared algorithm) nonce.1
      plaintext = .ok ciphertext) {sender : FixedBytes 32}
    (hkey : ∀ shared', deriveShared crates receiver.scheme receiver.pair.secret sender =
      .ok shared' →
        encryptionKey crates shared' algorithm ≠ encryptionKey crates shared algorithm) :
    ∃ error, receiver.decrypt crates (.v1 algorithm sender nonce.1 ciphertext) none =
      .error error := by
  rw [Signer.decrypt_eq]
  cases hshared : deriveShared crates receiver.scheme receiver.pair.secret sender with
  | error error => exact ⟨error, rfl⟩
  | ok shared' =>
    obtain ⟨error, hwrong⟩ := hlawful.decrypt_wrong hencrypt (hkey shared' hshared)
    refine ⟨algorithm.label ++ " decryption failed: " ++ error, ?_⟩
    simp [Except.bind, mapError, hwrong]

end

/-! ## Crates on given inputs

The curves, hashes and ciphers cannot be run here, but what they make of given inputs can be
listed.  Crates made of such a list answer as the real ones do where the list says so, and
refuse, or answer zeros, everywhere else.  `Vectors.lawful` says when this is enough: the
keypairs of the list agree pairwise, and no ciphertext is listed for two keys or two texts. -/

/-- The bytes, cut or filled with zeros to this many. -/
def padTo (n : ℕ) (b : Bytes) : FixedBytes n :=
  ⟨(b ++ List.replicate n 0).take n, List.length_take_of_le (by simp)⟩

/-- Bytes written in hexadecimal digits. -/
def ofDigits (n : ℕ) (digits : String) : FixedBytes n :=
  padTo n ((Hex.decode (Utf8.encode digits)).getD [])

/-- A plaintext and what an AEAD makes of it. -/
structure SealedText where
  algorithm : EncryptionAlgorithm
  key : FixedBytes 32
  nonce : Bytes
  plaintext : Bytes
  ciphertext : Bytes
  deriving DecidableEq

/-- What the functions of `Crates` make of some inputs. -/
structure Vectors where
  pairs : List ((CryptoScheme × String) × KeyPair)
  digests : List (Bytes × FixedBytes 64)
  ristretto : List ((FixedBytes 32 × FixedBytes 32) × FixedBytes 32)
  montgomery : List (FixedBytes 32 × FixedBytes 32)
  x25519 : List ((FixedBytes 32 × FixedBytes 32) × FixedBytes 32)
  keys : List ((Bytes × Bytes) × FixedBytes 32)
  seals : List SealedText

/-- Crates that know these inputs. -/
def Vectors.toCrates (vectors : Vectors) : Crates where
  pairFromString scheme suri :=
    (vectors.pairs.lookup (scheme, suri)).elim (.error "InvalidFormat") .ok
  sha512 b := (vectors.digests.lookup b).getD (padTo 64 [])
  ristrettoMul scalar point := vectors.ristretto.lookup (scalar, point)
  toMontgomery point := vectors.montgomery.lookup point
  x25519 secret point := (vectors.x25519.lookup (secret, point)).getD (padTo 32 [])
  hkdf _ key info := (vectors.keys.lookup (key, info)).getD (padTo 32 [])
  aeadEncrypt algorithm key nonce plaintext :=
    match vectors.seals.find? fun s =>
      s.algorithm = algorithm ∧ s.key = key ∧ s.nonce = nonce ∧ s.plaintext = plaintext with
    | some s => .ok s.ciphertext
    | none => .error "aead::Error"
  aeadDecrypt algorithm key nonce ciphertext :=
    match vectors.seals.find? fun s =>
      s.algorithm = algorithm ∧ s.key = key ∧ s.nonce = nonce ∧ s.ciphertext = ciphertext with
    | some s => .ok s.plaintext
    | none => .error "aead::Error"

section

variable {vectors : Vectors} {algorithm : EncryptionAlgorithm} {key : FixedBytes 32}
  {nonce plaintext ciphertext : Bytes}

theorem of_find?_decide {α : Type} {P : α → Prop} [DecidablePred P] {l : List α} {a : α}
    (h : l.find? (fun a => decide (P a)) = some a) : P a ∧ a ∈ l :=
  ⟨by simpa using List.find?_some h, List.mem_of_find?_eq_some h⟩

theorem Vectors.mem_of_pairFromString {scheme : CryptoScheme} {suri : String} {pair : KeyPair}
    (h : vectors.toCrates.pairFromString scheme suri = .ok pair) :
    ((scheme, suri), pair) ∈ vectors.pairs := by
  cases hlookup : vectors.pairs.lookup (scheme, suri) with
  | none => simp [Vectors.toCrates, hlookup] at h
  | some pair' =>
    obtain ⟨before, after, hpairs, -⟩ := List.lookup_eq_some_iff.mp hlookup
    have hpair : pair' = pair := by simpa [Vectors.toCrates, hlookup] using h
    rw [hpairs, hpair]
    exact List.mem_append_right _ List.mem_cons_self

theorem Vectors.mem_of_aeadEncrypt
    (h : vectors.toCrates.aeadEncrypt algorithm key nonce plaintext = .ok ciphertext) :
    ⟨algorithm, key, nonce, plaintext, ciphertext⟩ ∈ vectors.seals := by
  simp only [Vectors.toCrates] at h
  split at h
  · next s hfind =>
    obtain rfl := Except.ok.inj h
    obtain ⟨⟨rfl, rfl, rfl, rfl⟩, hmem⟩ := of_find?_decide hfind
    exact hmem
  · exact absurd h (by simp)

theorem Vectors.mem_of_aeadDecrypt
    (h : vectors.toCrates.aeadDecrypt algorithm key nonce ciphertext = .ok plaintext) :
    ⟨algorithm, key, nonce, plaintext, ciphertext⟩ ∈ vectors.seals := by
  simp only [Vectors.toCrates] at h
  split at h
  · next s hfind =>
    obtain rfl := Except.ok.inj h
    obtain ⟨⟨rfl, rfl, rfl, rfl⟩, hmem⟩ := of_find?_decide hfind
    exact hmem
  · exact absurd h (by simp)

theorem Vectors.exists_aeadDecrypt
    (h : ⟨algorithm, key, nonce, plaintext, ciphertext⟩ ∈ vectors.seals) :
    ∃ plaintext', vectors.toCrates.aeadDecrypt algorithm key nonce ciphertext = .ok plaintext' := by
  simp only [Vectors.toCrates]
  split
  · next s hfind => exact ⟨s.plaintext, rfl⟩
  · next hfind =>
    have hnot := List.find?_eq_none.mp hfind _ h
    exact absurd hnot (by simp)

end

/-- The keypairs come to the same secret from both sides. -/
def Vectors.Agree (vectors : Vectors) : Prop :=
  ∀ p ∈ vectors.pairs, ∀ p' ∈ vectors.pairs, p.1.1 = p'.1.1 →
    deriveShared vectors.toCrates p.1.1 p.2.secret p'.2.publicKey =
      deriveShared vectors.toCrates p.1.1 p'.2.secret p.2.publicKey

/-- A ciphertext stands for one text, under one key. -/
def Unambiguous (seals : List SealedText) : Prop :=
  ∀ s ∈ seals, ∀ s' ∈ seals, s.algorithm = s'.algorithm → s.nonce = s'.nonce →
    s.ciphertext = s'.ciphertext → s = s'

instance (vectors : Vectors) : Decidable vectors.Agree :=
  inferInstanceAs (Decidable (∀ p ∈ vectors.pairs, _))

instance (seals : List SealedText) : Decidable (Unambiguous seals) :=
  inferInstanceAs (Decidable (∀ s ∈ seals, _))

/-- Crates made of a list are lawful if the list is in order. -/
theorem Vectors.lawful {vectors : Vectors} (hagree : vectors.Agree)
    (hseals : Unambiguous vectors.seals) : vectors.toCrates.Lawful where
  agreement hpair hpair' :=
    hagree _ (Vectors.mem_of_pairFromString hpair) _ (Vectors.mem_of_pairFromString hpair') rfl
  decrypt_encrypt hencrypt := by
    have hmem := Vectors.mem_of_aeadEncrypt hencrypt
    obtain ⟨plaintext', hdecrypt⟩ := Vectors.exists_aeadDecrypt hmem
    have heq := hseals _ (Vectors.mem_of_aeadDecrypt hdecrypt) _ hmem rfl rfl rfl
    rw [hdecrypt, (SealedText.mk.inj heq).2.2.2.1]
  decrypt_wrong {algorithm key key' nonce plaintext ciphertext} hencrypt hkey := by
    cases hdecrypt : vectors.toCrates.aeadDecrypt algorithm key' nonce ciphertext with
    | error error => exact ⟨error, rfl⟩
    | ok plaintext' =>
      have heq := hseals _ (Vectors.mem_of_aeadDecrypt hdecrypt) _
        (Vectors.mem_of_aeadEncrypt hencrypt) rfl rfl rfl
      exact absurd (SealedText.mk.inj heq).2.1 hkey

/-! ## Alice and Bob

The accounts `//Alice` and `//Bob` of the development phrase.  In SR25519 the secret is the
scalar itself, in ED25519 the seed that is hashed to it.  Alice's ED25519 key is not the
encoding of a Ristretto point, so an SR25519 keypair comes to no secret with her at all. -/

/-- The seed of Bob in ED25519. -/
def bobDigits : String := "3b7b60af2abcd57ba401ab398f84f4ca54bd6b2140d2503fbcf3286535fe3ff1"

/-- The keypair of Alice in this scheme. -/
def alicePair : CryptoScheme → KeyPair
  | .sr25519 =>
    ⟨ofDigits 32 "d43593c715fdd31c61141abd04a99fd6822c8558854ccde39a5684e7a56da27d",
      ofDigits 32 "33a6f3093f158a7109f679410bef1a0c54168145e0cecb4df006c1c2fffb1f09"⟩
  | .ed25519 =>
    ⟨ofDigits 32 "88dc3417d5058ec4b4503e0c12ea1a0a89be200fe98922423d4334014fa6b0ee",
      ofDigits 32 "abf8e5bdbe30c65656c0a3cbd181ff8a56294a69dfedd27982aace4a76909115"⟩

/-- The keypair of Bob in this scheme. -/
def bobPair : CryptoScheme → KeyPair
  | .sr25519 =>
    ⟨ofDigits 32 "8eaf04151687736326c9fea17e25fc5287613693c912909cb226aa4794f26a48",
      ofDigits 32 "e1c39e72cca724caa697d64a58e10bd95ffa63d1922962f7e27f8a09dda1370b"⟩
  | .ed25519 =>
    ⟨ofDigits 32 "d17c2d7823ebf260fd138f2d7e27d114c0145d968b5ff5006125f2414fadae69",
      ofDigits 32 bobDigits⟩

/-- The compressed point that Alice and Bob share in SR25519. -/
def sharedPoint : FixedBytes 32 :=
  ofDigits 32 "bef705d2c12dc11985336a27fec73b2a1ee57d09a06c6ee4334d48512a404c67"

/-- Their ED25519 keys in Montgomery form. -/
def aliceMontgomery : FixedBytes 32 :=
  ofDigits 32 "1dae5e12544c5cdac520461aa8c675fbb51f731fc74231b0b33bee311dce4e16"

def bobMontgomery : FixedBytes 32 :=
  ofDigits 32 "26f02f50687f06bd3c215dc159f25841d54a1f2216f5e7007abc263fbf730775"

/-- The secret that they share in this scheme. -/
def sharedSecret : CryptoScheme → FixedBytes 32
  | .sr25519 =>
    ofDigits 32 "1d9a2cf68ca4cf65cb279acb90389a79985215af9d130ccd665a09aac955ef78"
  | .ed25519 =>
    ofDigits 32 "ae7f8cdfab1f4776f1ba821e9555752057a1258915cbc827a4bc7b38156ce122"

/-- What follows the shared secret in the digest of the shared point. -/
def sharedDigits : String := "68b614443ab758bb7d9ccaa362e11fb89caee6b54c117adbb9aa7e407ccc3dde"

/-- What Alice and Bob come to, with these sealed texts. -/
def devVectors (seals : List SealedText) : Vectors where
  pairs :=
    [((.sr25519, "//Alice"), alicePair .sr25519), ((.sr25519, "//Bob"), bobPair .sr25519),
      ((.ed25519, "//Alice"), alicePair .ed25519), ((.ed25519, "//Bob"), bobPair .ed25519),
      ((.ed25519, "0x" ++ bobDigits), bobPair .ed25519)]
  digests :=
    [(Utf8.encode "robonomics-cps-ecdh" ++ sharedPoint.1,
        padTo 64 ((sharedSecret .sr25519).1 ++ (ofDigits 32 sharedDigits).1)),
      ((alicePair .ed25519).secret.1, ofDigits 64
        ("ad1b0f9034e41752d289cf87537b843c4a94496181290515b22608a6ccac6b6f" ++
          "9ec8de26319f1ec6554426f3aa834c2ab6ce7ea9f6c6886d14fe0d85d47f0d75")),
      ((bobPair .ed25519).secret.1, ofDigits 64
        ("0d0b8a3db85a6043c4ae4c7e9af0d82130d62a6316b12830f81ff6a673281dbb" ++
          "e3cbc83496ddf68a45048e7e2312d028ab248b6b7cd4e47491f3d94345916e82"))]
  ristretto :=
    [(((alicePair .sr25519).secret, (bobPair .sr25519).publicKey), sharedPoint),
      (((bobPair .sr25519).secret, (alicePair .sr25519).publicKey), sharedPoint)]
  montgomery :=
    [((alicePair .ed25519).publicKey, aliceMontgomery),
      ((bobPair .ed25519).publicKey, bobMontgomery)]
  x25519 :=
    [((ofDigits 32 "a81b0f9034e41752d289cf87537b843c4a94496181290515b22608a6ccac6b6f",
        bobMontgomery), sharedSecret .ed25519),
      ((ofDigits 32 "080b8a3db85a6043c4ae4c7e9af0d82130d62a6316b12830f81ff6a673281d7b",
        aliceMontgomery), sharedSecret .ed25519)]
  keys :=
    [(((sharedSecret .sr25519).1, Utf8.encode "chacha20poly1305"),
        ofDigits 32 "296d52281da78b2f82d42e88c779740df0f41686ef330b244851ca30f840c711"),
      (((sharedSecret .ed25519).1, Utf8.encode "chacha20poly1305"),
        ofDigits 32 "83235c58780b16ab78d617302bc1a98e7d167d6e033b9aac24a54e6d2d52b27a"),
      (((sharedSecret .ed25519).1, Utf8.encode "xchacha20poly1305"),
        ofDigits 32 "daddc0d8167a0d6647147b3d2e391371b495d6c27345a4865c394cc9a9aefc57")]
  seals := seals

/-- Crates that know Alice, Bob and these sealed texts. -/
abbrev devCrates (seals : List SealedText) : Crates := (devVectors seals).toCrates

theorem devVectors_agree : (devVectors []).Agree := by decide +kernel

theorem devCrates_lawful {seals : List SealedText} (hseals : Unambiguous seals) :
    (devCrates seals).Lawful := by
  -- key agreement does not depend on the texts
  have hagree : (devVectors seals).Agree := devVectors_agree
  exact Vectors.lawful hagree hseals

/-- The address of Bob's key in this scheme. -/
def bobAddress : CryptoScheme → String
  | .sr25519 => "4FRC4ae57MnRJViqfbrEHrwDWQm4E3bGzR1szC3h6kQDKwi1"
  | .ed25519 => "4GvnAjgUnhCvhCLz7TkJdxYUhTxN8W5keXrRndG5aijDsEX7"

/-- Bob in this scheme. -/
def bob (scheme : CryptoScheme) : Signer := ⟨scheme, bobPair scheme⟩

theorem fromSuri_bob (seals : List SealedText) (scheme : CryptoScheme) :
    Signer.fromSuri (devCrates seals) scheme "//Bob" = .ok (bob scheme) := by
  cases scheme <;> rfl

end Crypto
end Robins
