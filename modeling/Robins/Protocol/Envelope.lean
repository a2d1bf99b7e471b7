import Robins.Basic

/-!
# Signed envelopes

The transport-neutral message of the gateway and the checks every message goes through before
anything else looks at it.  An envelope is four byte fields; the decoder puts no condition on them,
`validateEnvelope` does, and `verifyEnvelope` then asks Ed25519 about the bytes `signingPayload`
builds.

Ed25519 itself is not part of the repository.  It enters as a function of the three things it is
given --- the signature, the signed bytes and the public key --- and nothing is assumed about it.

What a check establishes is written as an equivalence: an envelope is valid exactly if it is
`WellFormed` (`validateEnvelope_eq_ok_iff`), and verified exactly if it is that and Ed25519 said yes
to its own signature, payload and key (`verifyEnvelope_eq_ok_iff`).
-/

namespace Robins
namespace Protocol

/-! ## Limits -/

/-- Length in bytes of an Ed25519 `sensor_id` (public key). -/
def sensorIdLen : ℕ := 32

/-- Length in bytes of an Ed25519 `signature`. -/
def signatureLen : ℕ := 64

/-- Least accepted `nonce` length. -/
def minNonceLen : ℕ := 16

/-- Greatest accepted `nonce` length. -/
def maxNonceLen : ℕ := 32

/-! ## Errors -/

/-- Errors of decoding, verifying and parsing envelopes. -/
inductive ProtocolError where
  | decode (reason : String)
  | badSignature
  | sensorIdLen (got : ℕ)
  | sensorKey
  | signatureLen (got : ℕ)
  | nonceLen (got : ℕ)
  | emptyMessage
  | hex (reason : String)
  deriving DecidableEq, Repr

/-- The text of an error (its `Display`). -/
def ProtocolError.toText : ProtocolError → String
  | .decode reason => "malformed envelope: " ++ reason
  | .badSignature => "invalid signature"
  | .sensorIdLen got =>
    "invalid sensor_id length: expected " ++ toString Protocol.sensorIdLen ++ ", got " ++
      toString got
  | .sensorKey => "invalid sensor_id public key"
  | .signatureLen got =>
    "invalid signature length: expected " ++ toString Protocol.signatureLen ++ ", got " ++
      toString got
  | .nonceLen got =>
    "invalid nonce length: expected " ++ toString minNonceLen ++ "..=" ++
      toString maxNonceLen ++ ", got " ++ toString got
  | .emptyMessage => "empty message"
  | .hex reason => "invalid hex: " ++ reason

/-! ## Data -/

/-- A signed envelope as the decoder returns it: no field is checked yet. -/
structure SignedEnvelope where
  sensorId : Bytes
  nonce : Bytes
  message : Bytes
  signature : Bytes
  deriving DecidableEq, Repr

/-- The bytes a decoded envelope carries, over its four fields. -/
def SignedEnvelope.size (e : SignedEnvelope) : ℕ :=
  e.sensorId.length + e.nonce.length + e.message.length + e.signature.length

/-- The Ed25519 public key that identifies a sensor; always 32 bytes. -/
structure SensorId where
  bytes : FixedBytes sensorIdLen
  deriving DecidableEq

/-- Build a `SensorId` from a byte slice, checking its length. -/
def SensorId.fromSlice (b : Bytes) : Except ProtocolError SensorId :=
  match FixedBytes.ofSlice sensorIdLen b with
  | some a => .ok ⟨a⟩
  | none => .error (.sensorIdLen b.length)

/-- An envelope whose structure and signature have been checked. -/
structure VerifiedEnvelope where
  sensorId : SensorId
  envelope : SignedEnvelope
  deriving DecidableEq

/-! ## Checks -/

/-- The byte string the signature covers: `sensor_id ‖ nonce ‖ message`. -/
def signingPayload (e : SignedEnvelope) : Bytes :=
  e.sensorId ++ e.nonce ++ e.message

/-- The structural checks on a decoded envelope, in the order the code makes
them.  The signature is not looked at beyond its length. -/
def validateEnvelope (e : SignedEnvelope) : Except ProtocolError SensorId :=
  match SensorId.fromSlice e.sensorId with
  | .error err => .error err
  | .ok sensorId =>
    if e.signature.length ≠ signatureLen then
      .error (.signatureLen e.signature.length)
    else if e.nonce.length < minNonceLen ∨ e.nonce.length > maxNonceLen then
      .error (.nonceLen e.nonce.length)
    else if e.message = [] then
      .error .emptyMessage
    else
      .ok sensorId

/-- Ed25519 verification as the code calls it: signature, signed bytes, public
key. -/
abbrev Ed25519Verify := FixedBytes signatureLen → Bytes → FixedBytes sensorIdLen → Bool

/-- Validate an envelope, then verify its signature over `signingPayload`. -/
def verifyEnvelope (verify : Ed25519Verify) (e : SignedEnvelope) :
    Except ProtocolError VerifiedEnvelope :=
  match validateEnvelope e with
  | .error err => .error err
  | .ok sensorId =>
    match FixedBytes.ofSlice signatureLen e.signature with
    | none => .error (.signatureLen e.signature.length)
    | some signature =>
      if verify signature (signingPayload e) sensorId.bytes then
        .ok ⟨sensorId, e⟩
      else
        .error .badSignature

/-! ## What the checks establish -/

theorem SensorId.fromSlice_eq_ok_iff {b : Bytes} {s : SensorId} :
    SensorId.fromSlice b = .ok s ↔ s.bytes.1 = b := by
  unfold SensorId.fromSlice
  cases h : FixedBytes.ofSlice sensorIdLen b with
  | none =>
    rw [FixedBytes.ofSlice_eq_none_iff] at h
    simp only [reduceCtorEq, false_iff]
    rintro rfl
    exact h s.bytes.2
  | some a =>
    rw [FixedBytes.ofSlice_eq_some_iff] at h
    obtain ⟨c⟩ := s
    simp only [Except.ok.injEq, SensorId.mk.injEq]
    rw [← h]
    exact ⟨fun hac => hac ▸ rfl, fun hca => (Subtype.ext hca).symm⟩

/-- The conditions `validateEnvelope` accepts an envelope under. -/
structure SignedEnvelope.WellFormed (e : SignedEnvelope) : Prop where
  sensorId_length : e.sensorId.length = sensorIdLen
  signature_length : e.signature.length = signatureLen
  minNonceLen_le : minNonceLen ≤ e.nonce.length
  le_maxNonceLen : e.nonce.length ≤ maxNonceLen
  message_ne_nil : e.message ≠ []

/-- An accepted envelope is well formed, and its `SensorId` is its `sensor_id`
field. -/
theorem validateEnvelope_eq_ok_iff {e : SignedEnvelope} {s : SensorId} :
    validateEnvelope e = .ok s ↔ e.WellFormed ∧ s.bytes.1 = e.sensorId := by
  unfold validateEnvelope
  cases hs : SensorId.fromSlice e.sensorId with
  | error err =>
    simp only [reduceCtorEq, false_iff, not_and]
    intro _ hse
    rw [SensorId.fromSlice_eq_ok_iff.mpr hse] at hs
    exact absurd hs (by simp)
  | ok t =>
    have ht := SensorId.fromSlice_eq_ok_iff.mp hs
    constructor
    · intro h
      dsimp only at h
      split at h
      · exact absurd h (by simp)
      · next hsig =>
        split at h
        · exact absurd h (by simp)
        · next hnonce =>
          split at h
          · exact absurd h (by simp)
          · next hmsg =>
            obtain rfl := Except.ok.inj h
            exact ⟨⟨ht ▸ t.bytes.2, not_not.mp hsig, by omega, by omega, hmsg⟩, ht⟩
    · rintro ⟨hw, hse⟩
      have hst : s = t := by
        obtain ⟨⟨b, hb⟩⟩ := s
        obtain ⟨⟨c, hc⟩⟩ := t
        simp only [SensorId.mk.injEq, Subtype.mk.injEq]
        exact hse.trans ht.symm
      have h1 := hw.minNonceLen_le
      have h2 := hw.le_maxNonceLen
      dsimp only
      rw [if_neg (not_not.mpr hw.signature_length), if_neg (by omega),
        if_neg hw.message_ne_nil, hst]

/-- An accepted envelope is well formed, Ed25519 said yes to exactly its
signature, its signing payload and its key, and it is returned unchanged. -/
theorem verifyEnvelope_eq_ok_iff {verify : Ed25519Verify} {e : SignedEnvelope}
    {v : VerifiedEnvelope} :
    verifyEnvelope verify e = .ok v ↔
      e.WellFormed ∧ v.envelope = e ∧ v.sensorId.bytes.1 = e.sensorId ∧
        ∃ signature : FixedBytes signatureLen, signature.1 = e.signature ∧
          verify signature (signingPayload e) v.sensorId.bytes = true := by
  obtain ⟨s, e'⟩ := v
  unfold verifyEnvelope
  constructor
  · intro h
    split at h
    · exact absurd h (by simp)
    · next t ht =>
      obtain ⟨hw, hte⟩ := validateEnvelope_eq_ok_iff.mp ht
      split at h
      · exact absurd h (by simp)
      · next signature hsig =>
        rw [FixedBytes.ofSlice_eq_some_iff] at hsig
        split at h
        · next hv =>
          obtain ⟨rfl, rfl⟩ := VerifiedEnvelope.mk.inj (Except.ok.inj h)
          exact ⟨hw, rfl, hte, signature, hsig, hv⟩
        · exact absurd h (by simp)
  · rintro ⟨hw, rfl, hse, signature, hsig, hv⟩
    rw [validateEnvelope_eq_ok_iff.mpr ⟨hw, hse⟩]
    dsimp only
    rw [FixedBytes.ofSlice_eq_some_iff.mpr hsig]
    dsimp only
    rw [if_pos hv]

end Protocol
end Robins
