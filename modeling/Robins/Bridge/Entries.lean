import Robins.Crypto.Cipher

/-!
# The entries of the MQTT bridge

A `[[subscribe]]` entry writes what arrives on a topic into the payload of a node, and a
`[[publish]]` entry publishes the payload of a node on a topic.  Here is what the two do with the
bytes: how an entry is started from the configuration, what the first stores for a message, and
what the second makes of what is stored.

A subscribe entry with a receiver encrypts, in the scheme and with the cipher it is configured
for; one without stores the message as text.  A publish entry tries to read an encrypted message
first.  If there is one and the entry has a key, it is decrypted, and without a key it is shown as
JSON; anything else is taken for text.

Everything that may be wrong with a configuration is found when the entry is started
(`SubscribeConfig.start_complete`): with a receiver there are a signer, a key and an algorithm, so
the case in which the entry would have to encrypt without them is never met.
-/

namespace Robins
namespace Bridge

open Crypto

/-! ## Configuration -/

/-- What the other libraries read from a configuration: an account in SS58, and bytes in
hex. -/
structure Readers where
  accountId : String → Option (FixedBytes 32)
  hexDecode : String → Except String Bytes

structure SubscribeConfig where
  topic : String
  nodeId : UInt64
  receiverPublic : Option String
  cipher : Option String
  scheme : Option String

structure PublishConfig where
  topic : String
  nodeId : UInt64
  decrypt : Bool

/-- A text without the prefix, if it has it (`strip_prefix`). -/
def withoutPrefix (start s : String) : String :=
  if start.toList.isPrefixOf s.toList then String.ofList (s.toList.drop start.length) else s

theorem withoutPrefix_append (start s : String) : withoutPrefix start (start ++ s) = s := by
  have hprefix : start.toList.isPrefixOf (start ++ s).toList = true := by
    rw [List.isPrefixOf_iff_prefix, String.toList_append]
    exact List.prefix_append _ _
  rw [withoutPrefix, if_pos hprefix, String.toList_append, ← String.length_toList, List.drop_left,
    String.ofList_toList]

/-- Parse receiver public key from SS58 address or hex string. -/
def parseReceiverPublicKey (readers : Readers) (addrOrHex : String) :
    Except String (FixedBytes 32) :=
  match readers.accountId addrOrHex with
  | some account => .ok account
  | none => do
    let bytes ← mapError "Invalid receiver address (not valid SS58 or hex): "
      (readers.hexDecode (withoutPrefix "0x" addrOrHex))
    match FixedBytes.ofSlice 32 bytes with
    | some key => .ok key
    | none => .error ("Invalid receiver public key: expected 32 bytes, got " ++
        toString bytes.length)

/-- A subscribe entry that was started. -/
structure Subscription where
  nodeId : UInt64
  cipher : Option Signer
  receiverPublic : Option (FixedBytes 32)
  algorithm : Option EncryptionAlgorithm
  deriving DecidableEq

/-- The names that an entry uses for its scheme and its cipher. -/
def SubscribeConfig.schemeName (entry : SubscribeConfig) : String :=
  entry.scheme.getD "sr25519"

def SubscribeConfig.cipherName (entry : SubscribeConfig) : String :=
  entry.cipher.getD "xchacha20"

def SubscribeConfig.start (crates : Crates) (readers : Readers) (suri : Option String)
    (entry : SubscribeConfig) : Except String Subscription :=
  match entry.receiverPublic with
  | none => .ok ⟨entry.nodeId, none, none, none⟩
  | some addrOrHex => do
    let receiver ← parseReceiverPublicKey readers addrOrHex
    let algorithm ← mapError ("Invalid cipher '" ++ entry.cipherName ++ "': ")
      (EncryptionAlgorithm.fromStr entry.cipherName)
    let scheme ← mapError ("Invalid scheme '" ++ entry.schemeName ++ "': ")
      (CryptoScheme.fromStr entry.schemeName)
    match suri with
    | none => .error "SURI required for encryption"
    | some suri => do
      let cipher ← Signer.fromSuri crates scheme suri
      .ok ⟨entry.nodeId, some cipher, some receiver, some algorithm⟩

/-- Start a publish entry: the keypair it decrypts with, if it is to.  The scheme of the
keypair is always SR25519. -/
def PublishConfig.start (crates : Crates) (suri : Option String) (entry : PublishConfig) :
    Except String (Option Signer) :=
  if entry.decrypt then
    match suri with
    | none => .error "SURI required for decryption"
    | some suri => (Signer.fromSuri crates .sr25519 suri).map some
  else .ok none

/-! ## From MQTT to the chain -/

/-- The largest payload of a node. -/
def maxPayloadSize : ℕ := 8192

/-- A payload of an admissible size. -/
def checkPayload (payload : Bytes) : Except String Unit :=
  if maxPayloadSize < payload.length then
    .error ("payload is " ++ toString payload.length ++ " bytes, the maximum is " ++
      toString maxPayloadSize)
  else .ok ()

/-- Nonces as they are generated: one of the right size for each algorithm. -/
abbrev Nonces := (algorithm : EncryptionAlgorithm) → FixedBytes algorithm.nonceSize

/-- The bytes to store for a message.  The middle case is unreachable in the source, and
panics there with this text. -/
def Subscription.nodeData (crates : Crates) (subscription : Subscription) (nonces : Nonces)
    (payload : Bytes) : Except String Bytes :=
  match subscription.receiverPublic, subscription.cipher, subscription.algorithm with
  | some receiver, some cipher, some algorithm =>
    match cipher.encrypt crates payload receiver algorithm (nonces algorithm) with
    | .ok message => .ok message.encode
    | .error error => .error ("Failed to encrypt message: " ++ error)
  | some _, _, _ =>
    .error "invalid bridge configuration: receiver_public is set but cipher or algorithm is missing"
  | none, _, _ => .ok (Utf8.lossy payload)

/-- What a message leaves in the payload of the node, if it is accepted. -/
def Subscription.store (crates : Crates) (subscription : Subscription) (nonces : Nonces)
    (payload : Bytes) : Except String Bytes := do
  let nodeData ← subscription.nodeData crates nonces payload
  checkPayload nodeData
  return nodeData

/-! ## From the chain to MQTT -/

/-- `String::from_utf8`. -/
def textOf (b : Bytes) : Except String String :=
  match Utf8.decode b with
  | some text => .ok text
  | none => .error ("Invalid UTF-8 character: " ++ Utf8.errorText b)

/-- The text to publish for what is stored. -/
def nodeDataToString (crates : Crates) (toJson : EncryptedMessage → Except String String)
    (cipher : Option Signer) (nodeData : Bytes) : Except String String :=
  match EncryptedMessage.decode nodeData with
  | some (message, _) =>
    match cipher with
    | some cipher => do
      let decrypted ← mapError "Failed to decrypt message: " (cipher.decrypt crates message none)
      textOf decrypted
    | none => mapError "Failed to convert encrypted message into JSON: " (toJson message)
  | none => textOf nodeData

/-- The bytes that go to the broker, if any. -/
def published (crates : Crates) (toJson : EncryptedMessage → Except String String)
    (cipher : Option Signer) (nodeData : Bytes) : Option Bytes :=
  match nodeDataToString crates toJson cipher nodeData with
  | .ok text => some (Utf8.encode text)
  | .error _ => none

section

variable {crates : Crates} {readers : Readers} {subscription : Subscription} {nonces : Nonces}
  {payload stored : Bytes}

theorem bind_eq_ok {α β : Type} {x : Except String α} {f : α → Except String β} {b : β}
    (h : x >>= f = .ok b) : ∃ a, x = .ok a ∧ f a = .ok b := by
  cases x with
  | error error => exact absurd h (by simp [bind, Except.bind])
  | ok a => exact ⟨a, rfl, h⟩

/-- An entry that is started never meets the unreachable case. -/
theorem SubscribeConfig.start_complete {suri : Option String} {entry : SubscribeConfig}
    (hstart : entry.start crates readers suri = .ok subscription) :
    (subscription.receiverPublic = none ∧ entry.receiverPublic = none) ∨
      ∃ addrOrHex receiver algorithm scheme signer suri',
        entry.receiverPublic = some addrOrHex ∧ suri = some suri' ∧
        parseReceiverPublicKey readers addrOrHex = .ok receiver ∧
        EncryptionAlgorithm.fromStr entry.cipherName = .ok algorithm ∧
        CryptoScheme.fromStr entry.schemeName = .ok scheme ∧
        Signer.fromSuri crates scheme suri' = .ok signer ∧
        subscription = ⟨entry.nodeId, some signer, some receiver, some algorithm⟩ := by
  unfold SubscribeConfig.start at hstart
  cases hreceiver : entry.receiverPublic with
  | none =>
    rw [hreceiver] at hstart
    obtain rfl := Except.ok.inj hstart
    exact .inl ⟨rfl, rfl⟩
  | some addrOrHex =>
    rw [hreceiver] at hstart
    obtain ⟨receiver, hparse, hstart⟩ := bind_eq_ok hstart
    obtain ⟨algorithm, halgorithm, hstart⟩ := bind_eq_ok hstart
    obtain ⟨scheme, hscheme, hstart⟩ := bind_eq_ok hstart
    cases suri with
    | none => exact absurd hstart (by simp)
    | some suri' =>
      obtain ⟨signer, hsigner, hstart⟩ := bind_eq_ok hstart
      exact .inr ⟨addrOrHex, receiver, algorithm, scheme, signer, suri', rfl, rfl, hparse,
        mapError_eq_ok_iff.mp halgorithm, mapError_eq_ok_iff.mp hscheme, hsigner,
        (Except.ok.inj hstart).symm⟩

theorem Subscription.store_eq_ok_iff :
    subscription.store crates nonces payload = .ok stored ↔
      subscription.nodeData crates nonces payload = .ok stored ∧
        stored.length ≤ maxPayloadSize := by
  unfold Subscription.store checkPayload
  cases subscription.nodeData crates nonces payload with
  | error error => simp [bind, Except.bind]
  | ok nodeData =>
    simp only [bind, Except.bind, Except.ok.injEq]
    split_ifs with hsize
    · simp only [false_iff, not_and, not_le]
      rintro rfl
      exact hsize
    · simp only [pure, Except.pure, Except.ok.injEq, iff_self_and]
      rintro rfl
      exact not_lt.mp hsize

end

/-- A reader that knows the addresses of Bob. -/
def bobReaders : Readers where
  accountId text :=
    if text = bobAddress .sr25519 then some (bobPair .sr25519).publicKey
    else if text = bobAddress .ed25519 then some (bobPair .ed25519).publicKey
    else none
  hexDecode _ := .error "Odd number of digits"

theorem parseReceiverPublicKey_bob (scheme : CryptoScheme) :
    parseReceiverPublicKey bobReaders (bobAddress scheme) = .ok (bob scheme).pair.publicKey := by
  cases scheme <;> decide +kernel

end Bridge
end Robins
