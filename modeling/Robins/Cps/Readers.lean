import Robins.Cps.Sealing

/-!
# Two readers of stored data

The publish entries of the bridge and the command line both decide from the bytes alone whether
what is stored is an encrypted message.  The command line asks that the message is all there is;
the bridge takes a message at the front for the whole.  They agree except where something follows
a message (`readers_agree_iff`).

What it means that a reader treats data as a message has to be said without looking into the
reader.  It is that what it makes of the data is, with every key, what it makes of that message.
With some keys the two may come to the same by accident; with crates under which nothing can be
decrypted they do not, and that is how `bridgeTreatsAsMessage_iff` goes back from the behaviour to
the bytes.
-/

namespace Robins
namespace Cps

open Crypto Bridge

/-- A publish entry that decrypts treats the data as an encrypted message. -/
def BridgeTreatsAsMessage (stored : Bytes) : Prop :=
  ∃ message, ∀ (crates : Crates) (toJson : EncryptedMessage → Except String String)
    (cipher : Signer), nodeDataToString crates toJson (some cipher) stored =
      (mapError "Failed to decrypt message: " (cipher.decrypt crates message none)).bind textOf

/-- The command line treats the data as an encrypted message when it is to decrypt. -/
def OpenTreatsAsMessage (stored : Bytes) : Prop :=
  ∃ message, ∀ (crates : Crates) (scheme : CryptoScheme) (suri : Option String),
    openData crates ⟨true, scheme⟩ suri stored =
      (keypair crates scheme suri "decryption").bind fun signer =>
        mapError "failed to decrypt: " (signer.decrypt crates message none)

/-- An encoded message with something after it. -/
def Trailed (stored : Bytes) : Prop :=
  ∃ message : EncryptedMessage, ∃ rest, message.Fits ∧ rest ≠ [] ∧ stored = message.encode ++ rest

/-- Crates without any point on their curves: nothing is decrypted. -/
def pointlessCrates : Crates :=
  { devCrates [] with ristrettoMul := fun _ _ => none, toMontgomery := fun _ => none }

theorem pointlessCrates_decrypt (message : EncryptedMessage) :
    (bob .sr25519).decrypt pointlessCrates message none =
      .error "Failed to decompress Ristretto255 public key" := by
  obtain ⟨algorithm, sender, nonce, ciphertext⟩ := message
  rfl

/-- The bridge takes exactly data with a message at the front. -/
theorem bridgeTreatsAsMessage_iff {stored : Bytes} :
    BridgeTreatsAsMessage stored ↔
      ∃ message rest, EncryptedMessage.decode stored = some (message, rest) := by
  constructor
  · rintro ⟨message, h⟩
    cases hdecode : EncryptedMessage.decode stored with
    | some p => exact ⟨p.1, p.2, rfl⟩
    | none =>
      -- text is never what comes of a message that cannot be decrypted
      have hfails := h pointlessCrates (fun _ => .ok "") (bob .sr25519)
      rw [nodeDataToString, hdecode, pointlessCrates_decrypt] at hfails
      dsimp only at hfails
      unfold textOf at hfails
      split at hfails
      · exact absurd hfails (by simp [mapError, Except.bind])
      · have htext := Except.error.inj hfails
        have hhead := congrArg (fun s : String => s.toList.head?) htext
        simp [String.toList_append] at hhead
  · rintro ⟨message, rest, hdecode⟩
    refine ⟨message, fun crates toJson cipher => ?_⟩
    rw [nodeDataToString, hdecode]
    rfl

/-- The command line takes exactly data that is a message. -/
theorem openTreatsAsMessage_iff {stored : Bytes} :
    OpenTreatsAsMessage stored ↔
      ∃ message, EncryptedMessage.decode stored = some (message, []) := by
  constructor
  · rintro ⟨message, h⟩
    by_contra hnot
    have hfails := h (devCrates []) .sr25519 none
    rw [openData_of_not_message fun message hmessage => hnot ⟨message, hmessage⟩] at hfails
    exact absurd hfails (by simp [keypair, Except.bind])
  · rintro ⟨message, hdecode⟩
    exact ⟨message, fun crates scheme suri => openData_of_decode hdecode⟩

/-- Data with something after a message is not itself a message. -/
theorem trailed_iff {stored : Bytes} :
    Trailed stored ↔
      ∃ message b rest, EncryptedMessage.decode stored = some (message, b :: rest) := by
  constructor
  · rintro ⟨message, _ | ⟨b, rest⟩, hfits, hrest, rfl⟩
    · exact absurd rfl hrest
    · exact ⟨message, b, rest, EncryptedMessage.decode_eq_some_iff.mpr ⟨hfits, rfl⟩⟩
  · rintro ⟨message, b, rest, hdecode⟩
    obtain ⟨hfits, heq⟩ := EncryptedMessage.decode_eq_some_iff.mp hdecode
    exact ⟨message, b :: rest, hfits, by simp, heq⟩

/-- **When the readers agree.**  The bridge and the command line classify stored data in the
same way if and only if nothing follows an encoded message at its front. -/
theorem readers_agree_iff (stored : Bytes) :
    (BridgeTreatsAsMessage stored ↔ OpenTreatsAsMessage stored) ↔ ¬ Trailed stored := by
  rw [bridgeTreatsAsMessage_iff, openTreatsAsMessage_iff, trailed_iff]
  cases hdecode : EncryptedMessage.decode stored with
  | none => simp
  | some p =>
    obtain ⟨message, _ | ⟨b, rest⟩⟩ := p
    · simp
    · simp

/-- An encoded message, and a line feed. -/
def messageAndNewline : Bytes :=
  (EncryptedMessage.v1 .aesGcm256 (FixedBytes.replicate 32 0x61) (List.replicate 12 0)
    (List.replicate 20 0x62)).encode ++ [0x0A]

/-- An encrypted message with a line feed after it. -/
theorem readers_disagree_messageAndNewline :
    BridgeTreatsAsMessage messageAndNewline ∧ ¬ OpenTreatsAsMessage messageAndNewline := by
  have hdecode : EncryptedMessage.decode messageAndNewline =
      some (.v1 .aesGcm256 (FixedBytes.replicate 32 0x61) (List.replicate 12 0)
        (List.replicate 20 0x62), [0x0A]) :=
    EncryptedMessage.decode_eq_some_iff.mpr ⟨by decide, rfl⟩
  rw [bridgeTreatsAsMessage_iff, openTreatsAsMessage_iff]
  refine ⟨⟨_, _, hdecode⟩, ?_⟩
  rintro ⟨message, hwhole⟩
  rw [hdecode] at hwhole
  exact absurd (congrArg Prod.snd (Option.some.inj hwhole)) (by simp)

end Cps
end Robins
