import Robins.Bridge.Entries

/-!
# Sealed data on the command line

The command line stores data as it is, or encrypts it for a receiver, and shows what is stored as
it is, or decrypts it.  Data is decrypted when all of it is one encrypted message; anything else is
shown unchanged.

The scheme is an option of the command on both sides, since the message does not have it.  With
the same option on both sides, what is sealed for a receiver opens for that receiver, whatever the
algorithm and whatever nonce is drawn: the encoding is read back whole, the two keypairs come to
one secret, and the cipher undoes itself.  `sealed_data_opens` has this round trip, and the two
refusals that go with it: of a sender who is not the one expected, and of a nonce that does not
have the length of its algorithm.

A message is encoded with lengths of 32 bits, and the encoder panics on a field that is longer;
sealing such data has no result here.
-/

namespace Robins
namespace Cps

open Crypto Bridge

/-! ## The commands -/

/-- Encrypt written data for a receiver. -/
structure EncryptionArgs where
  receiverPublic : Option String
  cipher : String
  scheme : CryptoScheme

structure DecryptArgs where
  decrypt : Bool
  scheme : CryptoScheme

/-- Parse an account from an SS58 address or a hex public key. -/
def parseAccount (readers : Readers) (text : String) : Except String (FixedBytes 32) :=
  match readers.accountId text with
  | some account => .ok account
  | none =>
    match readers.hexDecode (withoutPrefix "0x" text) with
    | .error _ => .error ("crypto error: `" ++ text ++ "` is neither an SS58 address nor hex")
    | .ok bytes =>
      match FixedBytes.ofSlice 32 bytes with
      | some key => .ok key
      | none => .error ("crypto error: public key must be 32 bytes, got " ++ toString bytes.length)

/-- The keypair of the secret URI that was given. -/
def keypair (crates : Crates) (scheme : CryptoScheme) (suri : Option String) (purpose : String) :
    Except String Signer :=
  match suri with
  | none => .error ("--suri is required for " ++ purpose)
  | some suri => Signer.fromSuri crates scheme suri

instance (message : EncryptedMessage) : Decidable message.Fits :=
  match message with
  | .v1 _ _ _ _ => inferInstanceAs (Decidable (_ ∧ _))

/-- The SCALE encoding.  A field longer than its 32 bits can say is a panic. -/
def encodeOrPanic (message : EncryptedMessage) : Option Bytes :=
  if message.Fits then some message.encode else none

/-- The message for a receiver. -/
def sealFor (crates : Crates) (readers : Readers) (args : EncryptionArgs) (suri : Option String)
    (nonces : Nonces) (receiver : String) (data : Bytes) : Except String EncryptedMessage := do
  let receiver ← mapError "invalid receiver: " (parseAccount readers receiver)
  let algorithm ← mapError "invalid cipher: " (EncryptionAlgorithm.fromStr args.cipher)
  let signer ← keypair crates args.scheme suri "encryption"
  signer.encrypt crates data receiver algorithm (nonces algorithm)

/-- `seal`: encrypt data for the receiver when one is requested; otherwise it is unchanged.
None is a panic. -/
def sealData (crates : Crates) (readers : Readers) (args : EncryptionArgs) (suri : Option String)
    (nonces : Nonces) (data : Bytes) : Option (Except String Bytes) :=
  match args.receiverPublic with
  | none => some (.ok data)
  | some receiver =>
    match sealFor crates readers args suri nonces receiver data with
    | .error error => some (.error error)
    | .ok message => (encodeOrPanic message).map .ok

/-- `open`: decrypt data when this is asked for and it is an encrypted message, all of it;
any other data is unchanged. -/
def openData (crates : Crates) (args : DecryptArgs) (suri : Option String) (data : Bytes) :
    Except String Bytes :=
  if ¬ args.decrypt then .ok data
  else
    match EncryptedMessage.decode data with
    | some (message, []) => do
      let signer ← keypair crates args.scheme suri "decryption"
      mapError "failed to decrypt: " (signer.decrypt crates message none)
    | _ => .ok data

section

variable {crates : Crates} {readers : Readers} {args : EncryptionArgs} {suri : Option String}
  {nonces : Nonces} {receiver : String} {data stored : Bytes}

theorem openData_of_decode {scheme : CryptoScheme} {message : EncryptedMessage}
    (h : EncryptedMessage.decode stored = some (message, [])) :
    openData crates ⟨true, scheme⟩ suri stored =
      (keypair crates scheme suri "decryption").bind fun signer =>
        mapError "failed to decrypt: " (signer.decrypt crates message none) := by
  rw [openData, if_neg (by simp), h]
  rfl

theorem openData_of_not_message {scheme : CryptoScheme}
    (h : ∀ message, EncryptedMessage.decode stored ≠ some (message, [])) :
    openData crates ⟨true, scheme⟩ suri stored = .ok stored := by
  rw [openData, if_neg (by simp)]
  cases hdecode : EncryptedMessage.decode stored with
  | none => rfl
  | some p =>
    obtain ⟨message, _ | ⟨b, rest⟩⟩ := p
    · exact absurd hdecode (h message)
    · rfl

theorem sealFor_eq_ok_iff {message : EncryptedMessage} :
    sealFor crates readers args suri nonces receiver data = .ok message ↔
      ∃ key algorithm signer, parseAccount readers receiver = .ok key ∧
        EncryptionAlgorithm.fromStr args.cipher = .ok algorithm ∧
        keypair crates args.scheme suri "encryption" = .ok signer ∧
        signer.encrypt crates data key algorithm (nonces algorithm) = .ok message := by
  unfold sealFor
  constructor
  · intro h
    obtain ⟨key, hkey, h⟩ := bind_eq_ok h
    obtain ⟨algorithm, halgorithm, h⟩ := bind_eq_ok h
    obtain ⟨signer, hsigner, h⟩ := bind_eq_ok h
    exact ⟨key, algorithm, signer, mapError_eq_ok_iff.mp hkey, mapError_eq_ok_iff.mp halgorithm,
      hsigner, h⟩
  · rintro ⟨key, algorithm, signer, hkey, halgorithm, hsigner, h⟩
    rw [mapError_eq_ok_iff.mpr hkey, mapError_eq_ok_iff.mpr halgorithm, hsigner]
    exact h

/-- Data is sealed when a message was made for the receiver that fits its lengths. -/
theorem sealData_eq_ok_iff (hreceiver : args.receiverPublic = some receiver) :
    sealData crates readers args suri nonces data = some (.ok stored) ↔
      ∃ message, sealFor crates readers args suri nonces receiver data = .ok message ∧
        message.Fits ∧ message.encode = stored := by
  rw [sealData, hreceiver]
  cases hseal : sealFor crates readers args suri nonces receiver data with
  | error error => simp [hseal]
  | ok message =>
    by_cases hfits : message.Fits
    · simp [hseal, encodeOrPanic, hfits]
    · simp [hseal, encodeOrPanic, hfits]

theorem keypair_eq_ok {scheme : CryptoScheme} {purpose : String} {signer : Signer}
    (h : keypair crates scheme suri purpose = .ok signer) :
    ∃ text, suri = some text ∧ Signer.fromSuri crates scheme text = .ok signer := by
  cases suri with
  | none => exact absurd h (by simp [keypair])
  | some text => exact ⟨text, rfl, h⟩

end

/-! ## Round trip -/

/-- **Sealed data opens.**  What is sealed for the key of a receiver is one encrypted message
and nothing else, and opens under the secret of that key, in the same scheme, as the data it
was sealed from.  An expected sender must be the one the message names, and a nonce must have
the length of its algorithm. -/
theorem sealed_data_opens (crates : Crates) (hagrees : crates.Agrees)
    (hinverts : crates.Inverts) :
    (∀ (readers : Readers) (args : EncryptionArgs) (suri : Option String) (nonces : Nonces)
        (receiverText receiverSuri : String) (receiver : Signer) (data stored : Bytes),
      args.receiverPublic = some receiverText →
      Signer.fromSuri crates args.scheme receiverSuri = .ok receiver →
      parseAccount readers receiverText = .ok receiver.pair.publicKey →
      sealData crates readers args suri nonces data = some (.ok stored) →
        (∃ message, EncryptedMessage.decode stored = some (message, [])) ∧
          openData crates ⟨true, args.scheme⟩ (some receiverSuri) stored = .ok data) ∧
    (∀ (receiver : Signer) (message : EncryptedMessage) (expected : FixedBytes 32)
        (plaintext : Bytes),
      receiver.decrypt crates message (some expected) = .ok plaintext →
        message.sender = expected) ∧
    ∀ (receiver : Signer) (algorithm : EncryptionAlgorithm) (sender : FixedBytes 32)
        (nonce ciphertext : Bytes) (expectedSender : Option (FixedBytes 32)),
      nonce.length ≠ algorithm.nonceSize →
        ∃ error, receiver.decrypt crates (.v1 algorithm sender nonce ciphertext) expectedSender =
          .error error := by
  refine ⟨?_, ?_, fun receiver algorithm sender nonce ciphertext expectedSender hnonce =>
    Signer.decrypt_of_nonce_length expectedSender hnonce⟩
  · intro readers args suri nonces receiverText receiverSuri receiver data stored htext hreceiver
      hparse hseal
    obtain ⟨message, hmessage, hfits, rfl⟩ := (sealData_eq_ok_iff htext).mp hseal
    obtain ⟨key, algorithm, signer, hkey, -, hsigner, hencrypt⟩ := sealFor_eq_ok_iff.mp hmessage
    obtain ⟨senderSuri, -, hsigner⟩ := keypair_eq_ok hsigner
    obtain rfl := Except.ok.inj (hparse.symm.trans hkey)
    have hdecode : EncryptedMessage.decode message.encode = some (message, []) :=
      EncryptedMessage.decode_eq_some_iff.mpr ⟨hfits, (List.append_nil _).symm⟩
    refine ⟨⟨message, hdecode⟩, ?_⟩
    have hkeypair : keypair crates args.scheme (some receiverSuri) "decryption" = .ok receiver :=
      hreceiver
    rw [openData_of_decode hdecode, hkeypair]
    exact mapError_eq_ok_iff.mpr
      (Signer.decrypt_encrypt hagrees hinverts hsigner hreceiver hencrypt)
  · rintro receiver ⟨algorithm, sender, nonce, ciphertext⟩ expected plaintext hdecrypt
    exact (Signer.sender_of_decrypt hdecrypt).symm

/-- Encrypt for Bob, with ChaCha20 and ED25519. -/
def sealForBob : EncryptionArgs := ⟨some (bobAddress .ed25519), "ChaCha20", .ed25519⟩

def sevenNonces : Nonces := fun algorithm => FixedBytes.replicate algorithm.nonceSize 7

/-- A secret that Alice seals for Bob with such a nonce. -/
def sealedSecret : SealedText :=
  ⟨.chaCha20Poly1305,
    ofDigits 32 "83235c58780b16ab78d617302bc1a98e7d167d6e033b9aac24a54e6d2d52b27a",
    List.replicate 12 7, Utf8.encode "secret",
    (ofDigits 22 "01e2ee86100f74a23ce1f6dd3d8932df3d93729629e9").1⟩

theorem sealed_data_opens_secret :
    ∃ stored, sealData (devCrates [sealedSecret]) bobReaders sealForBob (some "//Alice")
        sevenNonces (Utf8.encode "secret") = some (.ok stored) ∧
      openData (devCrates [sealedSecret]) ⟨true, .ed25519⟩ (some "//Bob") stored =
        .ok (Utf8.encode "secret") ∧
      (∀ message plaintext, (bob .ed25519).decrypt (devCrates [sealedSecret]) message
        (some (bob .sr25519).pair.publicKey) = .ok plaintext →
          message.sender = (bob .sr25519).pair.publicKey) ∧
      ∃ error, (bob .ed25519).decrypt (devCrates [sealedSecret])
        (.v1 .aesGcm256 (FixedBytes.replicate 32 1) [] []) none = .error error := by
  have hlawful : (devCrates [sealedSecret]).Lawful := devCrates_lawful (by decide +kernel)
  have hsome : ((sealData (devCrates [sealedSecret]) bobReaders sealForBob (some "//Alice")
      sevenNonces (Utf8.encode "secret")).bind Except.toOption).isSome = true := by
    decide +kernel
  obtain ⟨stored, hstored⟩ := Option.isSome_iff_exists.mp hsome
  obtain ⟨result, hseal, hresult⟩ := Option.bind_eq_some_iff.mp hstored
  cases result with
  | error error => exact absurd hresult (by simp [Except.toOption])
  | ok stored' =>
    obtain rfl := Option.some.inj hresult
    obtain ⟨hround, hsender, hnonce⟩ := sealed_data_opens _ hlawful.agrees hlawful.inverts
    exact ⟨stored', hseal, (hround _ sealForBob (some "//Alice") _ (bobAddress .ed25519) "//Bob"
      (bob .ed25519) _ stored' rfl (fromSuri_bob _ .ed25519) (by decide +kernel) hseal).2,
      fun message plaintext => hsender _ message _ plaintext, hnonce _ _ _ [] [] none (by decide)⟩

end Cps
end Robins
