import Robins.Bridge.Entries
import Robins.Cps.Transaction
import Robins.Lib.Scale
import Robins.Lib.Utf8

/-!
# Identity permits

An account consents to be the identity of a node by signing a payload: a chain, a scope and a last
block.  The permit travels between commands as an artifact, a JSON document with the payload, the
account and the signature.

## What is signed

The bytes that are signed have the domain, then three fields of fixed width.  So they say which
payload they are of (`IdentityPermitPayload.signingBytes_injective`), and a signature for one
payload is checked over other bytes than one for another.

## What is read

The document has the byte strings as hex and the account as an address, and it is checked when it
is read: the version, the length of the genesis hash, and the length of the signature for its
scheme.  `PermitDocument.Tells` relates a document with the artifact it is read as, and
`fromJson_eq_ok_iff` says that reading is exactly this relation; the document of an artifact tells
of it, so an artifact is read as it was written (`fromJson_toJson`).  A document that does not fit
is refused with an error about it, whatever else it says.

JSON, addresses and hex are read and written by libraries.  What is asked of them is
`PermitCrates.ReadsBack`: each reads what it has written for this artifact.
-/

namespace Robins
namespace Cps

open Bridge Crypto LittleEndian Scale

/-! ## Signatures -/

/-- Signature scheme of an identity key. -/
inductive IdentityScheme where
  | sr25519
  | ed25519
  | ecdsa
  deriving DecidableEq, Repr

/-- The text of a scheme (its `Display`). -/
def IdentityScheme.toText : IdentityScheme → String
  | .sr25519 => "sr25519"
  | .ed25519 => "ed25519"
  | .ecdsa => "ecdsa"

def IdentityScheme.signatureSize : IdentityScheme → ℕ
  | .sr25519 | .ed25519 => 64
  | .ecdsa => 65

/-- A signature of an identity account. -/
inductive PermitSignature where
  | sr25519 (bytes : FixedBytes 64)
  | ed25519 (bytes : FixedBytes 64)
  | ecdsa (bytes : FixedBytes 65)
  deriving DecidableEq

def PermitSignature.scheme : PermitSignature → IdentityScheme
  | .sr25519 _ => .sr25519
  | .ed25519 _ => .ed25519
  | .ecdsa _ => .ecdsa

def PermitSignature.toBytes : PermitSignature → Bytes
  | .sr25519 bytes | .ed25519 bytes | .ecdsa bytes => bytes.1

/-- Raw bytes of the expected length, as a signature. -/
def ofRaw {n : ℕ} (make : FixedBytes n → PermitSignature) (scheme : IdentityScheme)
    (bytes : Bytes) : Except Error PermitSignature :=
  match FixedBytes.ofSlice n bytes with
  | some raw => .ok (make raw)
  | none =>
    .error (.crypto (scheme.toText ++ " signature must be " ++ toString n ++ " bytes, got " ++
      toString bytes.length))

def PermitSignature.fromBytes (scheme : IdentityScheme) (bytes : Bytes) :
    Except Error PermitSignature :=
  match scheme with
  | .sr25519 => ofRaw .sr25519 scheme bytes
  | .ed25519 => ofRaw .ed25519 scheme bytes
  | .ecdsa => ofRaw .ecdsa scheme bytes

theorem ofRaw_eq_ok_iff {n : ℕ} {make : FixedBytes n → PermitSignature} {scheme : IdentityScheme}
    {bytes : Bytes} {signature : PermitSignature} :
    ofRaw make scheme bytes = .ok signature ↔ ∃ raw, raw.1 = bytes ∧ make raw = signature := by
  unfold ofRaw
  cases hraw : FixedBytes.ofSlice n bytes with
  | none =>
    have hlength := FixedBytes.ofSlice_eq_none_iff.mp hraw
    constructor
    · exact fun h => by cases h
    · rintro ⟨raw, rfl, -⟩
      exact absurd raw.2 hlength
  | some raw =>
    obtain rfl := FixedBytes.ofSlice_eq_some_iff.mp hraw
    constructor
    · exact fun h => ⟨raw, rfl, Except.ok.inj h⟩
    · rintro ⟨raw', hbytes, rfl⟩
      obtain rfl := Subtype.ext hbytes
      rfl

/-- **Signatures and their bytes.**  A signature is made exactly from its own bytes. -/
theorem PermitSignature.fromBytes_eq_ok_iff {scheme : IdentityScheme} {bytes : Bytes}
    {signature : PermitSignature} :
    fromBytes scheme bytes = .ok signature ↔
      signature.scheme = scheme ∧ signature.toBytes = bytes := by
  cases scheme with
  | sr25519 | ed25519 | ecdsa =>
    rw [fromBytes, ofRaw_eq_ok_iff]
    constructor
    · rintro ⟨raw, rfl, rfl⟩
      exact ⟨rfl, rfl⟩
    · rintro ⟨hscheme, hbytes⟩
      cases signature with
      | sr25519 raw | ed25519 raw | ecdsa raw =>
        first
        | exact ⟨raw, hbytes, rfl⟩
        | cases hscheme

theorem PermitSignature.fromBytes_error {scheme : IdentityScheme} {bytes : Bytes} {error : Error}
    (h : fromBytes scheme bytes = .error error) : ∃ reason, error = .crypto reason := by
  cases scheme with
  | sr25519 | ed25519 | ecdsa =>
    rw [fromBytes, ofRaw] at h
    split at h
    · cases h
    · exact ⟨_, (Except.error.inj h).symm⟩

theorem PermitSignature.length_toBytes (signature : PermitSignature) :
    signature.toBytes.length = signature.scheme.signatureSize := by
  cases signature with
  | sr25519 raw | ed25519 raw | ecdsa raw => exact raw.2

/-! ## Payloads -/

/-- Domain separator, the first element of the signed tuple. -/
def identityPermitDomain : Bytes := Utf8.encode "robonomics:cps:node-identity:v1"

/-- Everything an identity account signs to issue a permit. -/
structure IdentityPermitPayload where
  genesisHash : FixedBytes 32
  scope : UInt64
  validUntil : UInt32
  deriving DecidableEq

/-- The exact bytes to sign: the domain, the chain, the scope and the last block. -/
def IdentityPermitPayload.signingBytes (payload : IdentityPermitPayload) : Bytes :=
  encodeBytes identityPermitDomain ++ (payload.genesisHash.1 ++
    (leBytes 8 payload.scope.toNat ++ leBytes 4 payload.validUntil.toNat))

/-- **What is signed says what it is for.**  Every field of the payload has a fixed width in the
bytes, so two payloads with the same bytes are the same. -/
theorem IdentityPermitPayload.signingBytes_injective : Function.Injective signingBytes := by
  intro a b h
  obtain ⟨genesisHash, scope, validUntil⟩ := a
  obtain ⟨genesisHash', scope', validUntil'⟩ := b
  have hfields := List.append_cancel_left h
  obtain ⟨hgenesis, hnumbers⟩ := List.append_inj hfields (genesisHash.2.trans genesisHash'.2.symm)
  obtain ⟨hscope, hvalid⟩ := List.append_inj hnumbers (by simp)
  have hscope := leBytes_inj scope.toNat_lt scope'.toNat_lt hscope
  have hvalid := leBytes_inj validUntil.toNat_lt validUntil'.toNat_lt hvalid
  obtain rfl := Subtype.ext hgenesis
  obtain rfl := UInt64.toNat_inj.mp hscope
  obtain rfl := UInt32.toNat_inj.mp hvalid
  rfl

/-! ## Artifacts -/

/-- Portable, self-describing identity permit. -/
structure PermitArtifact where
  payload : IdentityPermitPayload
  identity : FixedBytes 32
  signature : PermitSignature
  deriving DecidableEq

/-- The signature checks of the crypto crates, each on a message, and the account of a recovered
public key. -/
structure Verifiers where
  sr25519 : FixedBytes 64 → Bytes → FixedBytes 32 → Bool
  ed25519 : FixedBytes 64 → Bytes → FixedBytes 32 → Bool
  recover : FixedBytes 65 → Bytes → Option (FixedBytes 33)
  blake2 : Bytes → FixedBytes 32

/-- Whether the account has signed the message. -/
def Verifiers.accepts (verifiers : Verifiers) (signature : PermitSignature)
    (identity : FixedBytes 32) (message : Bytes) : Bool :=
  match signature with
  | .sr25519 raw => verifiers.sr25519 raw message identity
  | .ed25519 raw => verifiers.ed25519 raw message identity
  | .ecdsa raw =>
    (verifiers.recover raw message).any fun key => verifiers.blake2 key.1 == identity

/-- Check offline that the signature is valid for the identity over the payload. -/
def PermitArtifact.verify (verifiers : Verifiers) (artifact : PermitArtifact) : Bool :=
  verifiers.accepts artifact.signature artifact.identity artifact.payload.signingBytes

/-- The JSON document, with text for the account and the byte strings. -/
structure PermitDocument where
  version : UInt8
  identity : String
  scheme : IdentityScheme
  genesisHash : String
  scope : UInt64
  validUntil : UInt32
  signature : String
  deriving DecidableEq

/-- What the document is written and read with: JSON, SS58 and hex. -/
structure PermitCrates where
  toStringPretty : PermitDocument → String
  fromStr : String → Except String PermitDocument
  accountToText : FixedBytes 32 → String
  accountFromText : String → Option (FixedBytes 32)
  hexDecode : String → Option Bytes

def permitArtifactVersion : UInt8 := 1

def PermitArtifact.document (crates : PermitCrates) (artifact : PermitArtifact) :
    PermitDocument where
  version := permitArtifactVersion
  identity := crates.accountToText artifact.identity
  scheme := artifact.signature.scheme
  genesisHash := "0x" ++ hexEncode artifact.payload.genesisHash.1
  scope := artifact.payload.scope
  validUntil := artifact.payload.validUntil
  signature := "0x" ++ hexEncode artifact.signature.toBytes

/-- Each of the crates reads what it writes for the artifact. -/
structure PermitCrates.ReadsBack (crates : PermitCrates) (artifact : PermitArtifact) : Prop where
  document : crates.fromStr (crates.toStringPretty (artifact.document crates)) =
    .ok (artifact.document crates)
  identity : crates.accountFromText (crates.accountToText artifact.identity) =
    some artifact.identity
  hex (bytes : Bytes) : crates.hexDecode (hexEncode bytes) = some bytes

/-- Pretty-printed JSON form. -/
def PermitArtifact.toJson (crates : PermitCrates) (artifact : PermitArtifact) : String :=
  crates.toStringPretty (artifact.document crates)

/-- The error of a document. -/
def badPermit (what : String) : Error := .crypto ("invalid permit: " ++ what)

/-- The bytes of a hex text, with or without its prefix. -/
def PermitCrates.decode (crates : PermitCrates) (text : String) : Option Bytes :=
  crates.hexDecode (withoutPrefix "0x" text)

/-- Parse the JSON form. -/
def PermitArtifact.fromJson (crates : PermitCrates) (json : String) :
    Except Error PermitArtifact :=
  match crates.fromStr json with
  | .error reason => .error (badPermit reason)
  | .ok document =>
    if document.version ≠ permitArtifactVersion then
      .error (badPermit ("unsupported version " ++ toString document.version.toNat))
    else
      match (crates.decode document.genesisHash).bind (FixedBytes.ofSlice 32) with
      | none => .error (badPermit "genesis_hash must be 32 bytes of hex")
      | some genesis =>
        match crates.decode document.signature with
        | none => .error (badPermit "signature is not hex")
        | some bytes =>
          match crates.accountFromText document.identity with
          | none => .error (badPermit "identity is not an SS58 address")
          | some identity =>
            match PermitSignature.fromBytes document.scheme bytes with
            | .error error => .error error
            | .ok signature =>
              .ok ⟨⟨genesis, document.scope, document.validUntil⟩, identity, signature⟩

/-- The secret key of an identity account. -/
structure IdentityKey where
  accountId : FixedBytes 32
  sign : Bytes → PermitSignature

def IdentityPermitPayload.sign (payload : IdentityPermitPayload) (key : IdentityKey) :
    PermitArtifact :=
  ⟨payload, key.accountId, key.sign payload.signingBytes⟩

/-! ## Transport -/

/-- The version is known, and the byte strings have the length they should. -/
def PermitDocument.Fits (crates : PermitCrates) (document : PermitDocument) : Prop :=
  document.version = permitArtifactVersion ∧
    (∃ genesis, crates.decode document.genesisHash = some genesis ∧ genesis.length = 32) ∧
    ∃ bytes, crates.decode document.signature = some bytes ∧
      bytes.length = document.scheme.signatureSize

/-- What the document says of the artifact it is read as. -/
structure PermitDocument.Tells (crates : PermitCrates) (document : PermitDocument)
    (artifact : PermitArtifact) : Prop where
  version : document.version = permitArtifactVersion
  genesisHash : crates.decode document.genesisHash = some artifact.payload.genesisHash.1
  signature : crates.decode document.signature = some artifact.signature.toBytes
  identity : crates.accountFromText document.identity = some artifact.identity
  scheme : artifact.signature.scheme = document.scheme
  scope : document.scope = artifact.payload.scope
  validUntil : document.validUntil = artifact.payload.validUntil

/-- The message that a check of the artifact is about. -/
def VerifiedOver (artifact : PermitArtifact) (message : Bytes) : Prop :=
  ∀ verifiers : Verifiers, artifact.verify verifiers =
    verifiers.accepts artifact.signature artifact.identity message

section

variable {crates : PermitCrates} {json : String} {document : PermitDocument}
  {artifact : PermitArtifact}

/-- **What is read.**  A document is read as the artifact it tells of. -/
theorem PermitArtifact.fromJson_eq_ok_iff (hjson : crates.fromStr json = .ok document) :
    fromJson crates json = .ok artifact ↔ document.Tells crates artifact := by
  rw [fromJson, hjson]
  dsimp only
  constructor
  · intro h
    split_ifs at h with hversion
    cases hgenesis : (crates.decode document.genesisHash).bind (FixedBytes.ofSlice 32) with
    | none => simp [hgenesis] at h
    | some genesis =>
      obtain ⟨slice, hdecode, hslice⟩ := Option.bind_eq_some_iff.mp hgenesis
      obtain rfl := FixedBytes.ofSlice_eq_some_iff.mp hslice
      cases hbytes : crates.decode document.signature with
      | none => simp [hgenesis, hbytes] at h
      | some bytes =>
        cases hidentity : crates.accountFromText document.identity with
        | none => simp [hgenesis, hbytes, hidentity] at h
        | some identity =>
          cases hsignature : PermitSignature.fromBytes document.scheme bytes with
          | error error => simp [hgenesis, hbytes, hidentity, hsignature] at h
          | ok signature =>
            simp only [hgenesis, hbytes, hidentity, hsignature, Except.ok.injEq] at h
            subst h
            obtain ⟨hscheme, rfl⟩ := PermitSignature.fromBytes_eq_ok_iff.mp hsignature
            exact ⟨not_not.mp hversion, hdecode, hbytes, hidentity, hscheme, rfl, rfl⟩
  · intro h
    have hgenesis : (crates.decode document.genesisHash).bind (FixedBytes.ofSlice 32) =
        some artifact.payload.genesisHash := by
      rw [h.genesisHash]
      exact FixedBytes.ofSlice_eq_some_iff.mpr rfl
    have hsignature : PermitSignature.fromBytes document.scheme artifact.signature.toBytes =
        .ok artifact.signature := PermitSignature.fromBytes_eq_ok_iff.mpr ⟨h.scheme, rfl⟩
    rw [if_neg (not_not.mpr h.version), hgenesis, h.signature, h.identity, h.scope, h.validUntil]
    dsimp only
    rw [hsignature]

/-- A document is refused with an error about it. -/
theorem PermitArtifact.fromJson_error {error : Error} (h : fromJson crates json = .error error) :
    ∃ reason, error = .crypto reason := by
  unfold fromJson at h
  split at h
  · exact ⟨_, (Except.error.inj h).symm⟩
  · split_ifs at h
    · exact ⟨_, (Except.error.inj h).symm⟩
    · split at h
      · exact ⟨_, (Except.error.inj h).symm⟩
      · split at h
        · exact ⟨_, (Except.error.inj h).symm⟩
        · split at h
          · exact ⟨_, (Except.error.inj h).symm⟩
          · split at h
            · next hbytes =>
              obtain rfl := Except.error.inj h
              exact PermitSignature.fromBytes_error hbytes
            · cases h

theorem PermitDocument.Tells.fits (h : document.Tells crates artifact) : document.Fits crates :=
  ⟨h.version, ⟨_, h.genesisHash, artifact.payload.genesisHash.2⟩, _, h.signature,
    h.scheme ▸ artifact.signature.length_toBytes⟩

theorem PermitArtifact.fromJson_of_not_fits (hjson : crates.fromStr json = .ok document)
    (hfits : ¬ document.Fits crates) :
    ∃ reason, fromJson crates json = .error (.crypto reason) := by
  cases hread : fromJson crates json with
  | ok artifact => exact absurd ((fromJson_eq_ok_iff hjson).mp hread).fits hfits
  | error error =>
    obtain ⟨reason, rfl⟩ := fromJson_error hread
    exact ⟨reason, rfl⟩

theorem PermitArtifact.tells_document (hreads : crates.ReadsBack artifact) :
    (artifact.document crates).Tells crates artifact := by
  have hdecode : ∀ bytes, crates.decode ("0x" ++ hexEncode bytes) = some bytes := fun bytes => by
    rw [PermitCrates.decode, withoutPrefix_append, hreads.hex]
  exact ⟨rfl, hdecode _, hdecode _, hreads.identity, rfl, rfl, rfl⟩

/-- An artifact is read as it was written. -/
theorem PermitArtifact.fromJson_toJson (hreads : crates.ReadsBack artifact) :
    fromJson crates (artifact.toJson crates) = .ok artifact :=
  (fromJson_eq_ok_iff hreads.document).mpr (tells_document hreads)

/-- The message of a check is what was signed, and no other. -/
theorem verifiedOver_iff {message : Bytes} :
    VerifiedOver artifact message ↔ message = artifact.payload.signingBytes := by
  constructor
  · intro h
    -- checks that accept this message, for this account, and nothing else
    have hchecked := h
      ⟨fun _ m _ => m == message, fun _ m _ => m == message,
        fun _ m => if m = message then some (FixedBytes.replicate 33 0) else none,
        fun _ => artifact.identity⟩
    unfold PermitArtifact.verify Verifiers.accepts at hchecked
    cases hsignature : artifact.signature with
    | sr25519 raw | ed25519 raw =>
      simp only [hsignature, beq_self_eq_true, beq_iff_eq] at hchecked
      exact hchecked.symm
    | ecdsa raw =>
      simp only [hsignature, if_pos, Option.any_some, beq_self_eq_true] at hchecked
      by_contra hne
      rw [if_neg (Ne.symm hne)] at hchecked
      exact Bool.false_ne_true hchecked
  · rintro rfl verifiers
    rfl

/-- A signed permit that was carried as JSON is valid where it arrives. -/
theorem IdentityPermitPayload.verify_carried {verifiers : Verifiers} {key : IdentityKey}
    (hkey : ∀ message, verifiers.accepts (key.sign message) key.accountId message = true)
    (payload : IdentityPermitPayload) (hreads : crates.ReadsBack (payload.sign key)) :
    ∃ artifact, PermitArtifact.fromJson crates ((payload.sign key).toJson crates) = .ok artifact ∧
      artifact.payload = payload ∧ artifact.verify verifiers = true :=
  ⟨_, PermitArtifact.fromJson_toJson hreads, rfl, hkey _⟩

/-- **Permits survive transport and bind what was signed.**  An artifact is read as it was
written; a document of another version, or with a byte string that does not fit, is refused;
what is signed determines the payload, so a changed payload is checked over another message. -/
theorem permits_bind (crates : PermitCrates) :
    (∀ artifact, crates.ReadsBack artifact →
      PermitArtifact.fromJson crates (artifact.toJson crates) = .ok artifact) ∧
    (∀ json document, crates.fromStr json = .ok document → ¬ document.Fits crates →
      ∃ reason, PermitArtifact.fromJson crates json = .error (.crypto reason)) ∧
    Function.Injective IdentityPermitPayload.signingBytes ∧
    ∀ (artifact changed : PermitArtifact) (message message' : Bytes),
      VerifiedOver artifact message → VerifiedOver changed message' →
      artifact.payload ≠ changed.payload → message ≠ message' := by
  refine ⟨fun _ => PermitArtifact.fromJson_toJson,
    fun _ _ => PermitArtifact.fromJson_of_not_fits,
    IdentityPermitPayload.signingBytes_injective, ?_⟩
  intro artifact changed message message' hmessage hmessage' hpayload heq
  rw [verifiedOver_iff] at hmessage hmessage'
  exact hpayload (IdentityPermitPayload.signingBytes_injective
    (hmessage.symm.trans (heq.trans hmessage')))

end

/-- The ED25519 account of Alice, and its address. -/
def aliceIdentity : FixedBytes 32 := (alicePair .ed25519).publicKey

def aliceAddress : String := "5FA9nQDVg267DEd8m1ZypXLBnvN7SFxYwV7ndqSYGiN9TTpu"

/-- Alice's signature for scope 7 up to block 1000, on the chain of the next permit. -/
def aliceSignature : FixedBytes 64 :=
  ofDigits 64 ("9c8051edbffce03b26edec8d4ccd7244cde987e23a3bae2620152e9aa2689649" ++
    "d5b3a8a17fec50b2d333975035659f00480e534b3e636b89dfcb5e552ac2bd0a")

def scopeSeven : PermitArtifact where
  payload := ⟨FixedBytes.replicate 32 0xAB, 7, 1000⟩
  identity := aliceIdentity
  signature := .ed25519 aliceSignature

def scopeSevenDocument (version : UInt8) : PermitDocument where
  version
  identity := aliceAddress
  scheme := .ed25519
  genesisHash := "0x" ++ hexEncode (List.replicate 32 0xAB)
  scope := 7
  validUntil := 1000
  signature := "0x" ++ hexEncode aliceSignature.1

/-- A document none of whose texts needs an escape, as JSON. -/
@[irreducible] def prettyJson (document : PermitDocument) : String :=
  "\x7b\n  \"version\": " ++ toString document.version.toNat ++
    ",\n  \"identity\": \"" ++ document.identity ++
    "\",\n  \"scheme\": \"" ++ document.scheme.toText ++
    "\",\n  \"genesis_hash\": \"" ++ document.genesisHash ++
    "\",\n  \"scope\": " ++ toString document.scope.toNat ++
    ",\n  \"valid_until\": " ++ toString document.validUntil.toNat ++
    ",\n  \"signature\": \"" ++ document.signature ++ "\"\n\x7d"

/-- Read two documents. -/
@[irreducible] def readScopeSeven (json : String) : Except String PermitDocument :=
  if json = prettyJson (scopeSevenDocument 1) then .ok (scopeSevenDocument 1)
  else if json = prettyJson (scopeSevenDocument 2) then .ok (scopeSevenDocument 2)
  else .error "expected value at line 1 column 1"

/-- Crates that know two documents and one account. -/
def scopeSevenCrates : PermitCrates where
  toStringPretty := prettyJson
  fromStr := readScopeSeven
  accountToText account := if account = aliceIdentity then aliceAddress else hexEncode account.1
  accountFromText text := if text = aliceAddress then some aliceIdentity else none
  hexDecode text := Hex.decode (Utf8.encode text)

theorem prettyJson_ne {document document' : PermitDocument}
    (h : document.version.toNat = 2) (h' : document'.version.toNat = 1) :
    prettyJson document ≠ prettyJson document' := by
  intro heq
  unfold prettyJson at heq
  rw [h, h', show toString (2 : ℕ) = "2" from rfl, show toString (1 : ℕ) = "1" from rfl] at heq
  simp only [String.append_assoc] at heq
  have hdigit := congrArg (fun s : String => s.toList[15]?) heq
  simp at hdigit

theorem readScopeSeven_two :
    readScopeSeven (prettyJson (scopeSevenDocument 2)) = .ok (scopeSevenDocument 2) := by
  have hne : prettyJson (scopeSevenDocument 2) ≠ prettyJson (scopeSevenDocument 1) :=
    prettyJson_ne rfl rfl
  unfold readScopeSeven
  rw [if_neg hne, if_pos rfl]

theorem scopeSevenCrates_identity :
    scopeSevenCrates.accountToText scopeSeven.identity = aliceAddress := by
  show (if aliceIdentity = aliceIdentity then aliceAddress else hexEncode aliceIdentity.1) = _
  rw [if_pos rfl]

theorem document_scopeSeven : scopeSeven.document scopeSevenCrates = scopeSevenDocument 1 := by
  rw [PermitArtifact.document, scopeSevenCrates_identity]
  rfl

theorem scopeSevenCrates_reads : scopeSevenCrates.ReadsBack scopeSeven where
  document := by
    rw [document_scopeSeven]
    show readScopeSeven (prettyJson (scopeSevenDocument 1)) = .ok (scopeSevenDocument 1)
    unfold readScopeSeven
    rw [if_pos rfl]
  identity := by
    rw [scopeSevenCrates_identity]
    show (if aliceAddress = aliceAddress then some aliceIdentity else none) = _
    rw [if_pos rfl]
    rfl
  hex bytes := by
    show Hex.decode (Utf8.encode (hexEncode bytes)) = some bytes
    rw [encode_hexEncode, Hex.decode_encode]

theorem permits_bind_scopeSeven :
    PermitArtifact.fromJson scopeSevenCrates (scopeSeven.toJson scopeSevenCrates) =
        .ok scopeSeven ∧
      ∃ reason, PermitArtifact.fromJson scopeSevenCrates (prettyJson (scopeSevenDocument 2)) =
        .error (.crypto reason) := by
  obtain ⟨hcarried, hrefused, -, -⟩ := permits_bind scopeSevenCrates
  exact ⟨hcarried scopeSeven scopeSevenCrates_reads,
    hrefused _ (scopeSevenDocument 2) readScopeSeven_two
      fun hfits => absurd hfits.1 (by decide)⟩

end Cps
end Robins
