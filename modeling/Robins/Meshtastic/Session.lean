import Robins.Meshtastic.Reassembly
import Robins.Pipeline.Model
import Robins.Protocol.Codec
import Robins.Lib.EventMachine

/-!
# A serial session

From a radio packet to an ingress message: the packet is filtered by its port and by its
authentication, its payload parsed and, if it is a fragment, given to the reassembler; a complete
payload is decoded and handed to the pipeline.  Every way through `handlePacket` leaves its trace in
the metrics.

The session waits for the next packet, the sweep or the shutdown, whichever comes first, and while
a message is on its way to the pipeline for that or the shutdown only.  Which of these happens is
the event.  The counters are those of the process; what is modelled here is what one session adds
to them.

A step also shows what it did to the assemblies: which one began, and which one ended and how.  No
code reads this.  It is what the metrics are about, and is read off the map before the step and the
map after it, not off the answer, so that the two can be compared.
-/

namespace Robins
namespace Meshtastic

open Protocol Pipeline

/-! ## Configuration -/

/-- The part of the `[meshtastic]` section that a session reads. -/
structure MeshtasticConfig where
  portNum : UInt32
  maxReassembledBytes : ℕ
  maxFragments : ℕ
  maxPending : ℕ
  maxPendingPerSender : ℕ
  reassemblyTimeoutSecs : ℕ
  reassemblyAbsoluteTimeoutSecs : ℕ
  deriving DecidableEq, Repr

/-- `ReassemblerConfig::from` -/
def ReassemblerConfig.ofConfig (config : MeshtasticConfig) : ReassemblerConfig where
  maxReassembledBytes := config.maxReassembledBytes
  maxFragments := config.maxFragments
  maxPending := config.maxPending
  maxPendingPerSender := config.maxPendingPerSender
  idleTimeout := Duration.ofSecs config.reassemblyTimeoutSecs
  absoluteTimeout := Duration.ofSecs config.reassemblyAbsoluteTimeoutSecs

/-! ## Radio packets -/

/-- The decoded payload of a mesh packet. -/
structure Data where
  portnum : Int32
  payload : Bytes
  requestId : UInt32
  deriving DecidableEq

inductive MeshPacket.PayloadVariant where
  | decoded (data : Data)
  | encrypted (bytes : Bytes)
  deriving DecidableEq

/-- A mesh packet; `sender` is its field `from`. -/
structure MeshPacket where
  sender : UInt32
  pkiEncrypted : Bool
  payloadVariant : Option MeshPacket.PayloadVariant
  deriving DecidableEq

/-- What the radio sends; only packets matter here. -/
inductive FromRadio.PayloadVariant where
  | packet (meshPacket : MeshPacket)
  | other
  deriving DecidableEq

structure FromRadio where
  payloadVariant : Option FromRadio.PayloadVariant
  deriving DecidableEq

/-- A number in eight hexadecimal digits (`{:08x}`). -/
def hex8 (n : UInt32) : String :=
  hexEncode [(n >>> 24).toUInt8, (n >>> 16).toUInt8, (n >>> 8).toUInt8, n.toUInt8]

/-- `TransportMetadata::meshtastic` -/
def meshtasticMetadata (meshSender : UInt32) : TransportMetadata where
  transport := .meshtastic
  peer := some ("!" ++ hex8 meshSender)

/-! ## Metrics -/

/-- The metrics of reassembly; `pending` is a gauge. -/
structure ReassemblyMetrics where
  started : ℕ
  completed : ℕ
  conflict : ℕ
  oversize : ℕ
  expired : ℕ
  pending : ℕ
  deriving DecidableEq, Repr

/-- All metrics a session reports. -/
structure Metrics where
  packetsReceived : ℕ
  packetsIgnored : ℕ
  framesInvalid : ℕ
  reassembly : ReassemblyMetrics
  validationRejected : ℕ
  ingressReceived : ℕ
  deriving DecidableEq, Repr

/-- Nothing reported yet. -/
def Metrics.zero : Metrics := ⟨0, 0, 0, ⟨0, 0, 0, 0, 0, 0⟩, 0, 0⟩

/-- The increment after a sweep; there is none when nothing was evicted. -/
def Metrics.countEvicted (m : Metrics) (evicted : ℕ) : Metrics :=
  if evicted > 0 then { m with reassembly.expired := m.reassembly.expired + evicted } else m

/-! ## Handling a packet -/

section

variable (prost : Prost) (sha256 : Sha256) (config : MeshtasticConfig)

/-- Decode a complete payload into the message for the pipeline. -/
def submitEnvelope (meshSender : UInt32) (receivedAt : BatchStore.Timestamp)
    (rawEnvelope : Bytes) (m : Metrics) : Option IngressMessage × Metrics :=
  match decodeEnvelope prost rawEnvelope with
  | .error _ => (none, { m with validationRejected := m.validationRejected + 1 })
  | .ok envelope =>
    (some ⟨envelope, rawEnvelope, meshtasticMetadata meshSender, receivedAt⟩,
      { m with ingressReceived := m.ingressReceived + 1 })

/-- Process one message of the radio: the message for the pipeline, if there is one,
and what is left.  `none` is the panic of `accept`. -/
def handlePacket (r : Reassembler) (m : Metrics) (now : Instant)
    (receivedAt : BatchStore.Timestamp) (packet : FromRadio) :
    Option (Option IngressMessage × Reassembler × Metrics) :=
  match packet.payloadVariant with
  | some (.packet meshPacket) =>
    match meshPacket.payloadVariant with
    | some (.decoded data) =>
      if data.portnum ≠ config.portNum.toInt32 then some (none, r, m)
      else
        let m := { m with packetsReceived := m.packetsReceived + 1 }
        if ¬ meshPacket.pkiEncrypted then
          some (none, r, { m with packetsIgnored := m.packetsIgnored + 1 })
        else
          let meshSender := meshPacket.sender
          match parseFrame data.payload with
          | .ok (.single bytes) =>
            let (message, m) := submitEnvelope prost meshSender receivedAt bytes m
            some (message, r, m)
          | .ok (.fragment fragment) =>
            match accept sha256 r now meshSender fragment with
            | none => none
            | some (.progress, r) =>
              some (none, r, { m with reassembly.started := m.reassembly.started + 1 })
            | some (.duplicateIgnored, r) => some (none, r, m)
            | some (.conflict, r) =>
              some (none, r, { m with reassembly.conflict := m.reassembly.conflict + 1 })
            | some (.rejected _, r) =>
              some (none, r, { m with reassembly.oversize := m.reassembly.oversize + 1 })
            | some (.complete bytes, r) =>
              let m := { m with reassembly.completed := m.reassembly.completed + 1 }
              let (message, m) := submitEnvelope prost meshSender receivedAt bytes m
              some (message, r, m)
          | .error _ => some (none, r, { m with framesInvalid := m.framesInvalid + 1 })
    | _ => some (none, r, m)
  | _ => some (none, r, m)

/-! ## The session -/

inductive SessionEnd where
  | shutdown
  | disconnected
  deriving DecidableEq, Repr

/-- Where the session loop waits. -/
inductive Phase where
  /-- For a packet, the sweep or the shutdown. -/
  | receiving
  /-- For the pipeline to take a message, or the shutdown. -/
  | sending (message : IngressMessage)
  | ended (why : SessionEnd)
  deriving DecidableEq

structure Session where
  reassembler : Reassembler
  metrics : Metrics
  phase : Phase

/-- A session that has just been opened. -/
def Session.start : Session := ⟨.new (.ofConfig config), .zero, .receiving⟩

/-- What can happen to a session. -/
inductive SessionEvent where
  | shutdown
  | sweep (now : Instant)
  | packet (now : Instant) (receivedAt : BatchStore.Timestamp) (packet : FromRadio)
  /-- The channel of decoded packets closes. -/
  | closed
  /-- The pipeline takes the message, or it is gone. -/
  | sent (ok : Bool)
  deriving DecidableEq

/-- How an assembly ended. -/
inductive Fate where
  | completed
  | conflict
  | rejection
  | expiry
  deriving DecidableEq, Repr

/-- What an answer means for the assembly it ends. -/
def Outcome.fate : Outcome → Option Fate
  | .progress => none
  | .complete _ => some .completed
  | .duplicateIgnored => none
  | .conflict => some .conflict
  | .rejected _ => some .rejection

/-- The life of an assembly, as it shows from outside. -/
inductive Lifecycle where
  | created (key : Key)
  | ended (key : Key) (fate : Fate)
  deriving DecidableEq

/-- The fragment of a packet that reaches the reassembler, with its sender. -/
def packetFragment (packet : FromRadio) : Option (UInt32 × FragmentFrame) :=
  match packet.payloadVariant with
  | some (.packet meshPacket) =>
    match meshPacket.payloadVariant with
    | some (.decoded data) =>
      if data.portnum ≠ config.portNum.toInt32 ∨ ¬ meshPacket.pkiEncrypted then none
      else
        match parseFrame data.payload with
        | .ok (.fragment fragment) => some (meshPacket.sender, fragment)
        | _ => none
    | _ => none
  | _ => none

/-- What a fragment did to the assembly under its key: it is there now and was not
before, or it was there and is not now. -/
def lifecycleOfFragment (r r' : Reassembler) (key : Key) (outcome : Outcome) : List Lifecycle :=
  if key ∈ r.assemblies then
    if key ∈ r'.assemblies then [] else outcome.fate.toList.map (.ended key)
  else if key ∈ r'.assemblies then [.created key] else []

/-- What a packet did. -/
def lifecycleOfPacket (r : Reassembler) (now : Instant) (packet : FromRadio) : List Lifecycle :=
  match packetFragment config packet with
  | none => []
  | some (meshSender, fragment) =>
    match accept sha256 r now meshSender fragment with
    | none => []
    | some (outcome, r') => lifecycleOfFragment r r' ⟨meshSender, fragment.messageId⟩ outcome

/-- What a sweep did: the assemblies that were there before and are not now. -/
def lifecycleOfSweep (r r' : Reassembler) : List Lifecycle :=
  (r.assemblies.keys.filter fun key => key ∉ r'.assemblies).map (.ended · .expiry)

def sessionStep (s : Session) : SessionEvent → Option (Session × List Lifecycle)
  | .shutdown =>
    match s.phase with
    | .ended _ => none
    | _ => some ({ s with phase := .ended .shutdown }, [])
  | .sweep now =>
    match s.phase with
    | .receiving =>
      let (evicted, r) := sweepExpired s.reassembler now
      let m := s.metrics.countEvicted evicted
      some ({ s with
        reassembler := r
        metrics := { m with reassembly.pending := r.pendingLen } },
        lifecycleOfSweep s.reassembler r)
    | _ => none
  | .packet now receivedAt packet =>
    match s.phase with
    | .receiving =>
      (handlePacket prost sha256 config s.reassembler s.metrics now receivedAt packet).map
        fun (message, r, m) =>
          ({ reassembler := r
             metrics := { m with reassembly.pending := r.pendingLen }
             phase := match message with
              | some message => .sending message
              | none => .receiving },
            lifecycleOfPacket sha256 config s.reassembler now packet)
    | _ => none
  | .closed =>
    match s.phase with
    | .receiving => some ({ s with phase := .ended .disconnected }, [])
    | _ => none
  | .sent ok =>
    match s.phase with
    | .sending _ =>
      some ({ s with phase := if ok then .receiving else .ended .shutdown }, [])
    | _ => none

def session : EventMachine Session SessionEvent Lifecycle := ⟨sessionStep prost sha256 config⟩

end

end Meshtastic
end Robins
