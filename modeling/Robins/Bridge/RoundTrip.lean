import Robins.Bridge.Entries

/-!
# Through the chain and back

What a subscribe entry stores for a message, a publish entry is to make the same message of.

## Text

A message stored as text comes back as it was, unless it can be read as an encrypted message, since
that is tried first (`plaintext_round_trip`).  An encoded message begins with two small numbers and
thirty-two arbitrary bytes, and may itself be text; so there is a text that no publish entry with a
key will publish (`text_taken_for_message`).

## Encrypted messages

Whether an encrypted message comes back depends on the scheme.  The algorithm is in the message but
the scheme is not, and a publish entry always reads the message with an SR25519 key.  For a
subscribe entry of that scheme the two keypairs come to one secret and the message is decrypted.
For one of the other scheme the sender's public key is taken for a point of another curve: it may
be none, and if it is one, the keypairs come to another secret.  `encrypted_round_trip_iff` says
that the scheme alone decides.

What is asked of the curves and ciphers is what is documented of them, and in `KeysDiffer` that the
wrong secret is not by accident the right one.
-/

namespace Robins
namespace Bridge

open Crypto

variable {crates : Crates} {readers : Readers} {toJson : EncryptedMessage → Except String String}

/-- What is published when the message was decrypted, or was not. -/
theorem published_of_decode {message : EncryptedMessage} {stored rest : Bytes}
    (hmessage : EncryptedMessage.decode stored = some (message, rest)) {cipher : Signer} :
    published crates toJson (some cipher) stored =
      match cipher.decrypt crates message none with
      | .ok decrypted => (Utf8.decode decrypted).map Utf8.encode
      | .error _ => none := by
  rw [published, nodeDataToString, hmessage]
  cases hdecrypt : cipher.decrypt crates message none with
  | error error => simp [hdecrypt, mapError, bind, Except.bind]
  | ok decrypted =>
    cases htext : Utf8.decode decrypted <;>
      simp [hdecrypt, mapError, bind, Except.bind, textOf, htext]

/-! ## Text -/

/-- The bytes are text, and small enough for a node. -/
def IsText (payload : Bytes) : Prop :=
  (Utf8.decode payload).isSome = true ∧ payload.length ≤ maxPayloadSize

/-- What is not read as an encrypted message is published as it is. -/
theorem published_of_text {cipher : Option Signer} {payload : Bytes}
    (hmessage : EncryptedMessage.decode payload = none)
    (htext : (Utf8.decode payload).isSome = true) :
    published crates toJson cipher payload = some payload := by
  obtain ⟨text, hdecode⟩ := Option.isSome_iff_exists.mp htext
  rw [published, nodeDataToString, hmessage]
  simp only [textOf, hdecode]
  rw [Utf8.decode_eq_some_iff.mp hdecode]

/-- An entry without a receiver stores a text as it is. -/
theorem store_text {subscription : Subscription} {nonces : Nonces} {payload : Bytes}
    (hplain : subscription.receiverPublic = none) (htext : IsText payload) :
    subscription.store crates nonces payload = .ok payload := by
  obtain ⟨text, hdecode⟩ := Option.isSome_iff_exists.mp htext.1
  refine Subscription.store_eq_ok_iff.mpr ⟨?_, htext.2⟩
  rw [Subscription.nodeData, hplain]
  exact congrArg Except.ok (Utf8.lossy_of_decode hdecode)

/-- **Text comes back unchanged**, with or without a key, if it does not begin with an
encoded message. -/
theorem plaintext_round_trip (crates : Crates)
    (toJson : EncryptedMessage → Except String String) (subscription : Subscription)
    (hplain : subscription.receiverPublic = none) (nonces : Nonces) (cipher : Option Signer)
    (payload : Bytes) (htext : IsText payload)
    (hmessage : ∀ message rest, payload ≠ EncryptedMessage.encode message ++ rest) :
    ∃ stored, subscription.store crates nonces payload = .ok stored ∧
      published crates toJson cipher stored = some payload :=
  ⟨payload, store_text hplain htext,
    published_of_text (EncryptedMessage.decode_eq_none hmessage) htext.1⟩

def zeroNonces : Nonces := fun algorithm => FixedBytes.replicate algorithm.nonceSize 0

theorem plaintext_round_trip_reading :
    ∃ stored, Subscription.store (devCrates []) ⟨5, none, none, none⟩ zeroNonces
        (Utf8.encode "21.5") = .ok stored ∧
      published (devCrates []) (fun _ => .ok "") (some (bob .sr25519)) stored =
        some (Utf8.encode "21.5") := by
  refine plaintext_round_trip (devCrates []) _ ⟨5, none, none, none⟩ rfl zeroNonces _ _ ?_ ?_
  · exact ⟨by rw [Utf8.decode_encode]; rfl, by decide +kernel⟩
  · rintro ⟨algorithm, sender, nonce, ciphertext⟩ rest heq
    have hhead : (50 : UInt8) = 0 := (List.cons.inj heq).1
    exact absurd hhead (by decide)

/-- Text that begins with two zero bytes and reads as a message without nonce and ciphertext. -/
def messageLike : Bytes :=
  EncryptedMessage.encode (.v1 .xChaCha20Poly1305 (FixedBytes.replicate 32 0x61) [] [])

/-- Whatever the key, it is not published. -/
theorem text_taken_for_message :
    IsText messageLike ∧ ∀ (crates : Crates) (toJson : EncryptedMessage → Except String String)
      (subscription : Subscription) (nonces : Nonces) (cipher : Signer),
      subscription.receiverPublic = none →
        ∃ stored, subscription.store crates nonces messageLike = .ok stored ∧
          published crates toJson (some cipher) stored = none := by
  have htext : IsText messageLike := by
    have hdecode : Utf8.decode messageLike =
        some ("\x00\x00" ++ String.ofList (List.replicate 32 'a') ++ "\x00\x00") :=
      Utf8.decode_eq_some_iff.mpr (by decide +kernel)
    exact ⟨by rw [hdecode]; rfl, by decide +kernel⟩
  refine ⟨htext, fun crates toJson subscription nonces cipher hplain => ?_⟩
  refine ⟨messageLike, store_text hplain htext, ?_⟩
  have hmessage : EncryptedMessage.decode messageLike =
      some (.v1 .xChaCha20Poly1305 (FixedBytes.replicate 32 0x61) [] [], []) :=
    EncryptedMessage.decode_eq_some_iff.mpr
      ⟨⟨by decide, by decide⟩, (List.append_nil _).symm⟩
  have hnonce : ∃ error, cipher.decrypt crates
      (.v1 .xChaCha20Poly1305 (FixedBytes.replicate 32 0x61) [] []) none = .error error :=
    Signer.decrypt_of_nonce_length none (by decide)
  obtain ⟨error, herror⟩ := hnonce
  rw [published_of_decode hmessage, herror]

/-! ## Encrypted messages -/

/-- The key that an SR25519 keypair comes to with the public key of an ED25519 keypair is not
the one that two ED25519 keypairs agree on. -/
def KeysDiffer (crates : Crates) (senderSuri receiverSuri : String) : Prop :=
  ∀ sender receiver receiver' shared shared' algorithm,
    crates.pairFromString .ed25519 senderSuri = .ok sender →
    crates.pairFromString .ed25519 receiverSuri = .ok receiver →
    crates.pairFromString .sr25519 receiverSuri = .ok receiver' →
    deriveShared crates .ed25519 sender.secret receiver.publicKey = .ok shared →
    deriveShared crates .sr25519 receiver'.secret sender.publicKey = .ok shared' →
    encryptionKey crates shared' algorithm ≠ encryptionKey crates shared algorithm

theorem map_eq_ok {α β : Type} {x : Except String α} {f : α → β} {b : β}
    (h : x.map f = .ok b) : ∃ a, x = .ok a ∧ f a = b := by
  cases x with
  | error error => exact absurd h (by simp [Except.map])
  | ok a => exact ⟨a, rfl, Except.ok.inj h⟩

/-- What an entry with a receiver stores is an encoded message. -/
theorem nodeData_of_encrypt {nodeId : UInt64} {signer : Signer} {receiver : FixedBytes 32}
    {algorithm : EncryptionAlgorithm} {nonces : Nonces} {payload stored : Bytes}
    (h : Subscription.nodeData crates ⟨nodeId, some signer, some receiver, some algorithm⟩ nonces
      payload = .ok stored) :
    ∃ message, signer.encrypt crates payload receiver algorithm (nonces algorithm) = .ok message ∧
      message.encode = stored := by
  unfold Subscription.nodeData at h
  dsimp only at h
  split at h
  · next message hencrypt => exact ⟨message, hencrypt, Except.ok.inj h⟩
  · exact absurd h (by simp)

/-- An encrypted message that fits a node is read back. -/
theorem decode_of_store {message : EncryptedMessage}
    (hsize : message.encode.length ≤ maxPayloadSize)
    {algorithm : EncryptionAlgorithm} {sender : FixedBytes 32} {ciphertext : Bytes}
    {nonce : FixedBytes algorithm.nonceSize}
    (hmessage : message = .v1 algorithm sender nonce.1 ciphertext) :
    EncryptedMessage.decode message.encode = some (message, []) := by
  refine EncryptedMessage.decode_eq_some_iff.mpr ⟨?_, (List.append_nil _).symm⟩
  subst hmessage
  have hlength : nonce.1.length + ciphertext.length ≤
      (EncryptedMessage.v1 algorithm sender nonce.1 ciphertext).encode.length := by
    simp only [EncryptedMessage.encode, Scale.encodeBytes, List.length_cons, List.length_append]
    omega
  unfold maxPayloadSize at hsize
  exact ⟨by omega, by omega⟩

/-- **An encrypted message comes back exactly in SR25519.**  A subscribe entry that encrypts
for the keypair of a publish entry in its scheme, and a publish entry that decrypts: what the
first stores the second publishes as it was, if and only if the scheme is SR25519. -/
theorem encrypted_round_trip_iff (crates : Crates) (hlawful : crates.Lawful) (readers : Readers)
    (toJson : EncryptedMessage → Except String String) (entry : SubscribeConfig)
    (publish : PublishConfig) (senderSuri receiverSuri : String)
    (hdiffer : KeysDiffer crates senderSuri receiverSuri) (subscription : Subscription)
    (hsubscribe : entry.start crates readers (some senderSuri) = .ok subscription)
    (scheme : CryptoScheme) (hscheme : CryptoScheme.fromStr entry.schemeName = .ok scheme)
    (receiver : Signer) (hreceiver : Signer.fromSuri crates scheme receiverSuri = .ok receiver)
    (hkey : entry.receiverPublic.map (parseReceiverPublicKey readers) =
      some (.ok receiver.pair.publicKey))
    (cipher : Option Signer) (hdecrypt : publish.decrypt = true)
    (hpublish : publish.start crates (some receiverSuri) = .ok cipher) (nonces : Nonces)
    (payload stored : Bytes) (htext : (Utf8.decode payload).isSome = true)
    (hstored : subscription.store crates nonces payload = .ok stored) :
    published crates toJson cipher stored = some payload ↔ scheme = .sr25519 := by
  -- what was started
  obtain ⟨-, hnone⟩ | ⟨addrOrHex, receiverPublic, algorithm, scheme', signer, suri', haddr, hsuri,
    hparse, -, hscheme', hsigner, rfl⟩ := SubscribeConfig.start_complete hsubscribe
  · rw [hnone] at hkey
    exact absurd hkey (by simp)
  obtain rfl := Option.some.inj hsuri
  obtain rfl := Except.ok.inj (hscheme.symm.trans hscheme')
  rw [haddr, Option.map_some, hparse, Option.some.injEq, Except.ok.injEq] at hkey
  subst hkey
  rw [PublishConfig.start, if_pos hdecrypt] at hpublish
  obtain ⟨reader, hreader, rfl⟩ := map_eq_ok hpublish
  -- what was stored
  obtain ⟨hnodeData, hsize⟩ := Subscription.store_eq_ok_iff.mp hstored
  obtain ⟨message, hencrypt, rfl⟩ := nodeData_of_encrypt hnodeData
  obtain ⟨shared, ciphertext, hshared, haead, hmessage⟩ := Signer.encrypt_eq_ok_iff.mp hencrypt
  rw [published_of_decode (decode_of_store hsize hmessage)]
  cases scheme with
  | sr25519 =>
    obtain rfl := Except.ok.inj (hreceiver.symm.trans hreader)
    rw [Signer.decrypt_encrypt hlawful.agrees hlawful.inverts hsigner hreceiver hencrypt]
    refine iff_of_true ?_ rfl
    obtain ⟨text, hdecode⟩ := Option.isSome_iff_exists.mp htext
    simp only [hdecode, Option.map_some, Utf8.decode_eq_some_iff.mp hdecode]
  | ed25519 =>
    obtain ⟨hs, hpair⟩ := Signer.fromSuri_eq_ok_iff.mp hsigner
    obtain ⟨-, hpair'⟩ := Signer.fromSuri_eq_ok_iff.mp hreceiver
    obtain ⟨hs', hpair''⟩ := Signer.fromSuri_eq_ok_iff.mp hreader
    rw [hs] at hshared
    have hwrong : ∃ error, reader.decrypt crates message none = .error error := by
      rw [hmessage]
      refine Signer.decrypt_wrong_key hlawful haead fun shared' hshared' => ?_
      rw [hs'] at hshared'
      exact hdiffer _ _ _ shared shared' algorithm hpair hpair' hpair'' hshared hshared'
    obtain ⟨error, herror⟩ := hwrong
    rw [herror]
    simp

/-- An SR25519 keypair comes to no key with Alice's ED25519 key, which is no Ristretto point. -/
theorem keysDiffer_alice_bob (seals : List SealedText) :
    KeysDiffer (devCrates seals) "//Alice" "//Bob" := by
  intro sender receiver receiver' shared shared' algorithm hsender hreceiver hreceiver' hshared
    hshared'
  obtain rfl := Except.ok.inj hsender
  obtain rfl := Except.ok.inj hreceiver'
  have hnone : deriveShared (devCrates seals) .sr25519 (bobPair .sr25519).secret
      (alicePair .ed25519).publicKey = .error "Failed to decompress Ristretto255 public key" := rfl
  exact absurd (hnone.symm.trans hshared') (by simp)

/-- A pressure, as Alice seals it for Bob with nonces of zeros, in each scheme. -/
def sealedPressures : List SealedText :=
  [⟨.chaCha20Poly1305,
      ofDigits 32 "296d52281da78b2f82d42e88c779740df0f41686ef330b244851ca30f840c711",
      List.replicate 12 0, Utf8.encode "1013",
      (ofDigits 20 "bffa1d723fef11b5e8c0a4034e636823b4a51872").1⟩,
    ⟨.chaCha20Poly1305,
      ofDigits 32 "83235c58780b16ab78d617302bc1a98e7d167d6e033b9aac24a54e6d2d52b27a",
      List.replicate 12 0, Utf8.encode "1013",
      (ofDigits 20 "8a72fefa4e71fd7de437ca7f9d848bd340eb0211").1⟩]

/-- Crates with which a pressure can be sealed and opened. -/
abbrev pressureCrates : Crates := devCrates sealedPressures

theorem pressureCrates_lawful : pressureCrates.Lawful := devCrates_lawful (by decide +kernel)

/-- An entry that encrypts for Bob, in this scheme. -/
def entryFor (scheme : CryptoScheme) (name : String) : SubscribeConfig :=
  ⟨"sensors/pressure", 7, some (bobAddress scheme), some "chacha20", some name⟩

def decryptingEntry : PublishConfig := ⟨"decrypted/sensor/data", 7, true⟩

/-- What an entry of Alice's that encrypts for Bob stores for a reading. -/
def storedFor (name : String) (scheme : CryptoScheme) : Except String (Subscription × Bytes) := do
  let subscription ← (entryFor scheme name).start pressureCrates bobReaders (some "//Alice")
  (subscription.store pressureCrates zeroNonces (Utf8.encode "1013")).map fun stored =>
    (subscription, stored)

theorem start_store_of_storedFor {name : String} {scheme : CryptoScheme}
    {subscription : Subscription} {stored : Bytes}
    (h : (storedFor name scheme).toOption = some (subscription, stored)) :
    (entryFor scheme name).start pressureCrates bobReaders (some "//Alice") = .ok subscription ∧
      subscription.store pressureCrates zeroNonces (Utf8.encode "1013") = .ok stored := by
  cases hstored : storedFor name scheme with
  | error error =>
    rw [hstored] at h
    exact absurd h (by simp [Except.toOption])
  | ok p =>
    rw [hstored] at h
    obtain rfl := Option.some.inj h
    obtain ⟨subscription', hsubscribe, hstored⟩ := bind_eq_ok hstored
    obtain ⟨stored', hstore, heq⟩ := map_eq_ok hstored
    obtain ⟨rfl, rfl⟩ := Prod.mk.inj heq
    exact ⟨hsubscribe, hstore⟩

theorem encrypted_round_trip_iff_sr25519 :
    ∃ subscription cipher stored,
      (entryFor .sr25519 "sr25519").start pressureCrates bobReaders (some "//Alice") =
        .ok subscription ∧
      decryptingEntry.start pressureCrates (some "//Bob") = .ok cipher ∧
      subscription.store pressureCrates zeroNonces (Utf8.encode "1013") = .ok stored ∧
      published pressureCrates (fun _ => .ok "") cipher stored = some (Utf8.encode "1013") := by
  have hsome : (storedFor "sr25519" .sr25519).toOption.isSome = true := by decide +kernel
  obtain ⟨⟨subscription, stored⟩, hpair⟩ := Option.isSome_iff_exists.mp hsome
  obtain ⟨hsubscribe, hstored⟩ := start_store_of_storedFor hpair
  refine ⟨subscription, some (bob .sr25519), stored, hsubscribe, rfl, hstored, ?_⟩
  exact (encrypted_round_trip_iff pressureCrates pressureCrates_lawful _ _
    (entryFor .sr25519 "sr25519") decryptingEntry "//Alice" "//Bob" (keysDiffer_alice_bob _)
    subscription hsubscribe .sr25519 (by decide +kernel) (bob .sr25519) (fromSuri_bob _ .sr25519)
    (congrArg some (parseReceiverPublicKey_bob .sr25519)) (some (bob .sr25519)) rfl rfl zeroNonces
    _ stored (by rw [Utf8.decode_encode]; rfl) hstored).mpr rfl

/-- Encrypted for Bob's ED25519 key, a reading is not published. -/
theorem not_published_ed25519 :
    pressureCrates.Lawful ∧ KeysDiffer pressureCrates "//Alice" "//Bob" ∧
    Signer.fromSuri pressureCrates .ed25519 "//Bob" = .ok (bob .ed25519) ∧
    parseReceiverPublicKey bobReaders (bobAddress .ed25519) =
      .ok (bob .ed25519).pair.publicKey ∧
    ∃ subscription cipher stored,
      (entryFor .ed25519 "ed25519").start pressureCrates bobReaders (some "//Alice") =
        .ok subscription ∧
      decryptingEntry.start pressureCrates (some "//Bob") = .ok cipher ∧
      subscription.store pressureCrates zeroNonces (Utf8.encode "1013") = .ok stored ∧
      published pressureCrates (fun _ => .ok "") cipher stored = none := by
  refine ⟨pressureCrates_lawful, keysDiffer_alice_bob _, fromSuri_bob _ .ed25519,
    parseReceiverPublicKey_bob .ed25519, ?_⟩
  have hnone : (storedFor "ed25519" .ed25519).toOption.map (fun p =>
      published pressureCrates (fun _ => .ok "") (some (bob .sr25519)) p.2) = some none := by
    decide +kernel
  obtain ⟨⟨subscription, stored⟩, hpair, hpublished⟩ := Option.map_eq_some_iff.mp hnone
  obtain ⟨hsubscribe, hstored⟩ := start_store_of_storedFor hpair
  exact ⟨subscription, some (bob .sr25519), stored, hsubscribe, rfl, hstored, hpublished⟩

end Bridge
end Robins
