import Robins.Auth.Policy
import Robins.BatchStore.Model

/-!
# Messages in the pipeline

What a transport hands in, what verification makes of it, and what the sinks receive.  The
identifier of a message is the digest of its exact wire bytes, never of a re-encoding: two wire
forms of one envelope are two messages to the pipeline.

An accepted message is made of a verified one, from which it has its sensor and its envelope, and
keeps the bytes it came in.  Metadata says where a message came from; nothing is decided by it.
-/

namespace Robins
namespace Pipeline

open Protocol

/-- The ingress transport of a message; diagnostic only. -/
inductive Transport where
  | http
  | meshtastic
  deriving DecidableEq, Repr

/-- The lowercase label of a transport. -/
def Transport.asStr : Transport → String
  | .http => "http"
  | .meshtastic => "meshtastic"

/-- Context of an arrival, without authority. -/
structure TransportMetadata where
  transport : Transport
  peer : Option String
  deriving DecidableEq, Repr

/-- A decoded message and the bytes it was decoded from; nothing is verified. -/
structure IngressMessage where
  envelope : SignedEnvelope
  rawEnvelope : Bytes
  transport : TransportMetadata
  receivedAt : BatchStore.Timestamp
  deriving DecidableEq

/-- A message whose signature has been verified. -/
structure Verified where
  message : IngressMessage
  verified : VerifiedEnvelope
  deriving DecidableEq

def Verified.sensor (v : Verified) : SensorId := v.verified.sensorId

structure EnvelopeId where
  bytes : FixedBytes 32
  deriving DecidableEq

/-- SHA-256 of the exact encoded envelope bytes. -/
def envelopeId (sha256 : Sha256) (bytes : Bytes) : EnvelopeId := ⟨sha256 bytes⟩

/-- A validated, authorized and deduplicated message. -/
structure AcceptedMessage where
  sensorId : SensorId
  envelope : SignedEnvelope
  rawEnvelope : Bytes
  envelopeId : EnvelopeId
  transport : TransportMetadata
  receivedAt : BatchStore.Timestamp
  deriving DecidableEq

/-- The message handed to the sinks. -/
def Verified.accepted (sha256 : Sha256) (v : Verified) : AcceptedMessage where
  sensorId := v.verified.sensorId
  envelope := v.verified.envelope
  rawEnvelope := v.message.rawEnvelope
  envelopeId := Pipeline.envelopeId sha256 v.message.rawEnvelope
  transport := v.message.transport
  receivedAt := v.message.receivedAt

/-- Why a sink did not take a message. -/
inductive SinkError where
  | closed (sink : String)
  | delivery (sink : String) (source : String)
  deriving DecidableEq, Repr

/-- The text of an error (its `Display`). -/
def SinkError.toText : SinkError → String
  | .closed sink => "sink '" ++ sink ++ "' is closed"
  | .delivery sink source => "sink '" ++ sink ++ "' delivery failed: " ++ source

end Pipeline
end Robins
