import Robins.Protocol.Envelope

/-!
# What a signature binds

The signed bytes are `sensor_id ‖ nonce ‖ message` with nothing between the
parts.  The key has a fixed width, so the signature fixes it; the nonce has any
length from 16 to 32, so the boundary between nonce and message is *not* among
the signed bytes.  Moving it keeps the signing payload, and with it the answer
of any signature check that is a function of key, payload and signature.

Forging without the key is stated that way.  Whoever does not hold the key can
only reuse answers Ed25519 has already given, so an envelope `e₂` is obtained
from an accepted `e₁` without the key when *every* verification function that
accepts `e₁` accepts `e₂`.  `derivable_iff` computes this relation: it holds
exactly between well-formed envelopes with the same signature and the same
signing payload, that is, between the re-splits of one another.
-/

namespace Robins
namespace Protocol

/-- The envelope passes `verifyEnvelope`. -/
def Accepted (verify : Ed25519Verify) (e : SignedEnvelope) : Prop :=
  ∃ v, verifyEnvelope verify e = .ok v

/-- `e₂` is accepted on the strength of the acceptance of `e₁` alone, whatever
Ed25519 answers elsewhere. -/
def Derivable (e₁ e₂ : SignedEnvelope) : Prop :=
  ∀ verify, Accepted verify e₁ → Accepted verify e₂

/-- Acceptance in terms of the envelope only. -/
theorem accepted_iff {verify : Ed25519Verify} {e : SignedEnvelope} :
    Accepted verify e ↔
      e.WellFormed ∧ ∃ (signature : FixedBytes signatureLen) (key : FixedBytes sensorIdLen),
        signature.1 = e.signature ∧ key.1 = e.sensorId ∧
          verify signature (signingPayload e) key = true := by
  constructor
  · rintro ⟨v, hv⟩
    obtain ⟨hw, -, hkey, signature, hsig, hver⟩ := verifyEnvelope_eq_ok_iff.mp hv
    exact ⟨hw, signature, v.sensorId.bytes, hsig, hkey, hver⟩
  · rintro ⟨hw, signature, key, hsig, hkey, hver⟩
    exact ⟨⟨⟨key⟩, e⟩, verifyEnvelope_eq_ok_iff.mpr ⟨hw, rfl, hkey, signature, hsig, hver⟩⟩

theorem Accepted.wellFormed {verify : Ed25519Verify} {e : SignedEnvelope}
    (h : Accepted verify e) : e.WellFormed :=
  (accepted_iff.mp h).1

/-- A well-formed envelope is accepted by the check that knows only its own
signature, payload and key. -/
theorem accepted_of_only {e : SignedEnvelope} (hw : e.WellFormed) :
    Accepted (fun signature payload key =>
      decide (signature.1 = e.signature ∧ payload = signingPayload e ∧ key.1 = e.sensorId)) e :=
  accepted_iff.mpr ⟨hw, ⟨e.signature, hw.signature_length⟩, ⟨e.sensorId, hw.sensorId_length⟩,
    rfl, rfl, decide_eq_true ⟨rfl, rfl, rfl⟩⟩

/-- The key is the first 32 signed bytes, so equal payloads of well-formed
envelopes have equal keys and agree on what follows. -/
theorem sensorId_eq_of_signingPayload_eq {e₁ e₂ : SignedEnvelope} (h₁ : e₁.WellFormed)
    (h₂ : e₂.WellFormed) (h : signingPayload e₁ = signingPayload e₂) :
    e₁.sensorId = e₂.sensorId ∧ e₁.nonce ++ e₁.message = e₂.nonce ++ e₂.message := by
  unfold signingPayload at h
  rw [List.append_assoc, List.append_assoc] at h
  exact List.append_inj h (h₁.sensorId_length.trans h₂.sensorId_length.symm)

/-- **What can be obtained without the key.**  From a well-formed envelope
exactly the well-formed envelopes with the same signature and the same signing
payload can be derived. -/
theorem derivable_iff {e₁ e₂ : SignedEnvelope} (h₁ : e₁.WellFormed) :
    Derivable e₁ e₂ ↔
      e₂.WellFormed ∧ e₂.signature = e₁.signature ∧ signingPayload e₂ = signingPayload e₁ := by
  constructor
  · intro h
    obtain ⟨hw, signature, key, hsig, -, hver⟩ := accepted_iff.mp (h _ (accepted_of_only h₁))
    obtain ⟨hs, hp, -⟩ := of_decide_eq_true hver
    exact ⟨hw, hsig.symm.trans hs, hp⟩
  · rintro ⟨h₂, hsig, hpayload⟩ verify hacc
    obtain ⟨-, signature, key, hs, hk, hver⟩ := accepted_iff.mp hacc
    have hkey := (sensorId_eq_of_signingPayload_eq h₂ h₁ hpayload).1
    exact accepted_iff.mpr ⟨h₂, signature, key, hs.trans hsig.symm, hk.trans hkey.symm,
      by rw [hpayload]; exact hver⟩

/-- A signed envelope with a 16-byte nonce and a two-byte message. -/
def shortNonceEnvelope : SignedEnvelope where
  sensorId := List.replicate 32 1
  nonce := List.replicate 16 2
  message := [2, 3]
  signature := List.replicate 64 4

/-- The same bytes with the first message byte moved into the nonce. -/
def longNonceEnvelope : SignedEnvelope where
  sensorId := List.replicate 32 1
  nonce := List.replicate 17 2
  message := [3]
  signature := List.replicate 64 4

/-- **The split is not bound.**  Both envelopes are well formed and have the
same signature and signing payload, yet they differ in nonce and message; so the
second is accepted wherever the first is. -/
theorem signature_does_not_bind_split :
    ¬ ((∀ e₁ e₂ : SignedEnvelope, (∃ s, validateEnvelope e₁ = .ok s) →
          (∃ s, validateEnvelope e₂ = .ok s) → signingPayload e₁ = signingPayload e₂ →
          e₁.sensorId = e₂.sensorId ∧ e₁.nonce = e₂.nonce ∧ e₁.message = e₂.message) ∨
        ∀ e₁ e₂ : SignedEnvelope, (∃ verify, Accepted verify e₁) → Derivable e₁ e₂ →
          e₂.signature = e₁.signature → e₂ = e₁) := by
  have hs : shortNonceEnvelope.WellFormed :=
    ⟨by decide, by decide, by decide, by decide, by decide⟩
  have hl : longNonceEnvelope.WellFormed :=
    ⟨by decide, by decide, by decide, by decide, by decide⟩
  have hpayload : signingPayload shortNonceEnvelope = signingPayload longNonceEnvelope := by
    decide
  rintro (h | h)
  · have := h shortNonceEnvelope longNonceEnvelope
      ⟨⟨⟨_, hs.sensorId_length⟩⟩, validateEnvelope_eq_ok_iff.mpr ⟨hs, rfl⟩⟩
      ⟨⟨⟨_, hl.sensorId_length⟩⟩, validateEnvelope_eq_ok_iff.mpr ⟨hl, rfl⟩⟩ hpayload
    exact absurd this.2.2 (by decide)
  · have := h shortNonceEnvelope longNonceEnvelope ⟨_, accepted_of_only hs⟩
      ((derivable_iff hs).mpr ⟨hl, rfl, hpayload.symm⟩) rfl
    exact absurd this (by decide)

/-- **What a signature does bind.**  Equal signing payloads of accepted
envelopes mean equal keys and equal `nonce ‖ message`, and equal nonces and
messages once the nonces have one length; and an envelope obtained from an
accepted one without the key, keeping the signature and the length of the nonce,
is that envelope. -/
theorem signature_binds_payload (e₁ e₂ : SignedEnvelope) :
    ((∃ s, validateEnvelope e₁ = .ok s) → (∃ s, validateEnvelope e₂ = .ok s) →
        signingPayload e₁ = signingPayload e₂ →
        e₁.sensorId = e₂.sensorId ∧ e₁.nonce ++ e₁.message = e₂.nonce ++ e₂.message ∧
          (e₁.nonce.length = e₂.nonce.length →
            e₁.nonce = e₂.nonce ∧ e₁.message = e₂.message)) ∧
      ((∃ verify, Accepted verify e₁) → Derivable e₁ e₂ → e₂.signature = e₁.signature →
        e₂.nonce.length = e₁.nonce.length → e₂ = e₁) := by
  constructor
  · rintro ⟨s₁, hv₁⟩ ⟨s₂, hv₂⟩ h
    obtain ⟨hw₁, -⟩ := validateEnvelope_eq_ok_iff.mp hv₁
    obtain ⟨hw₂, -⟩ := validateEnvelope_eq_ok_iff.mp hv₂
    obtain ⟨hkey, hrest⟩ := sensorId_eq_of_signingPayload_eq hw₁ hw₂ h
    exact ⟨hkey, hrest, fun hlen => List.append_inj hrest hlen⟩
  · rintro ⟨verify, hacc⟩ hder hsig hlen
    obtain ⟨hw₂, -, hpayload⟩ := (derivable_iff hacc.wellFormed).mp hder
    obtain ⟨hkey, hrest⟩ := sensorId_eq_of_signingPayload_eq hw₂ hacc.wellFormed hpayload
    obtain ⟨hnonce, hmessage⟩ := List.append_inj hrest hlen
    cases e₁
    cases e₂
    simp_all

/-- The two envelopes agree on what is bound, and an envelope is derived from itself. -/
theorem signature_binds_payload_shortNonce :
    (shortNonceEnvelope.sensorId = longNonceEnvelope.sensorId ∧
        shortNonceEnvelope.nonce ++ shortNonceEnvelope.message =
          longNonceEnvelope.nonce ++ longNonceEnvelope.message ∧
        (shortNonceEnvelope.nonce.length = longNonceEnvelope.nonce.length →
          shortNonceEnvelope.nonce = longNonceEnvelope.nonce ∧
            shortNonceEnvelope.message = longNonceEnvelope.message)) ∧
      shortNonceEnvelope = shortNonceEnvelope := by
  have hs : shortNonceEnvelope.WellFormed :=
    ⟨by decide, by decide, by decide, by decide, by decide⟩
  have hl : longNonceEnvelope.WellFormed :=
    ⟨by decide, by decide, by decide, by decide, by decide⟩
  have hv : ∃ s, validateEnvelope shortNonceEnvelope = .ok s :=
    ⟨⟨⟨_, hs.sensorId_length⟩⟩, validateEnvelope_eq_ok_iff.mpr ⟨hs, rfl⟩⟩
  have hv' : ∃ s, validateEnvelope longNonceEnvelope = .ok s :=
    ⟨⟨⟨_, hl.sensorId_length⟩⟩, validateEnvelope_eq_ok_iff.mpr ⟨hl, rfl⟩⟩
  exact ⟨(signature_binds_payload shortNonceEnvelope longNonceEnvelope).1 hv hv' (by decide),
    (signature_binds_payload shortNonceEnvelope shortNonceEnvelope).2
      ⟨_, accepted_of_only hs⟩ (fun _ h => h) rfl rfl⟩

end Protocol
end Robins
