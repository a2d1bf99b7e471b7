import Robins.Meshtastic.Session

/-!
# Sending the fragments of an envelope

`edge sensor meshtastic` sends fragments one by one to a gateway node and waits after each for the
routing reply that carries its packet id.  What the radio does is the script: how each
`send_mesh_packet` ends, and what every turn of the receive loop meets.  The script is consumed as
the program goes, so a packet received in one wait is not received again in the next.

The first routing reply for the packet ends the wait.  It is an acknowledgement unless it reports an
error; the node it comes from is not looked at.  A wait also ends when its time is over, before
a turn or in it, and when the connection is closed; a script that ends before any
of this is a loop that is still waiting.
-/

namespace Robins
namespace Sensor

open Meshtastic

/-! ## Routing replies -/

/-- What a routing message says: an error reason, or something about a route. -/
inductive Routing.Variant where
  | errorReason (err : Int32)
  | route
  deriving DecidableEq, Repr

structure Routing where
  variant : Option Routing.Variant
  deriving DecidableEq, Repr

/-- The generated code for routing messages. -/
structure RoutingCodec where
  /-- `Routing::decode`, with the text of its error -/
  decode : Bytes → Except String Routing
  /-- `routing::Error::try_from` and `as_str_name` -/
  errorName : Int32 → Option String

/-- `PortNum::RoutingApp` -/
def routingApp : Int32 := 5

/-- `routing::Error::None` -/
def errorNone : Int32 := 0

/-! ## Waiting for an acknowledgement -/

/-- How a wait for the next packet ends. -/
inductive Received where
  | packet (packet : FromRadio)
  | closed
  | elapsed
  deriving DecidableEq

/-- One turn of the receive loop: the time when it starts, and how its wait ends. -/
structure Turn where
  now : Instant
  received : Received
  deriving DecidableEq

/-- Wait for the routing reply to a packet; what is left of the turns is returned with
the result, and `none` is a loop that is still waiting. -/
def waitForAck (codec : RoutingCodec) (expectedId : UInt32) (deadline : Instant) :
    List Turn → Option (Except String Unit × List Turn)
  | [] => none
  | turn :: turns =>
    if deadline - turn.now = 0 then
      some (.error ("timed out waiting for ack of packet 0x" ++ hex8 expectedId), turn :: turns)
    else
      match turn.received with
      | .closed =>
        some (.error "meshtastic serial connection closed while waiting for ack", turns)
      | .elapsed =>
        some (.error ("timed out waiting for ack of packet 0x" ++ hex8 expectedId), turns)
      | .packet packet =>
        match packet.payloadVariant with
        | some (.packet meshPacket) =>
          match meshPacket.payloadVariant with
          | some (.decoded data) =>
            if data.portnum ≠ routingApp ∨ data.requestId ≠ expectedId then
              waitForAck codec expectedId deadline turns
            else
              match codec.decode data.payload with
              | .error e =>
                some (.error ("failed to decode routing ack for 0x" ++ hex8 expectedId ++
                  ": " ++ e), turns)
              | .ok routing =>
                match routing.variant with
                | some (.errorReason err) =>
                  if err = errorNone then some (.ok (), turns)
                  else some (.error ("mesh reported delivery failure: " ++
                    (codec.errorName err).getD "UNKNOWN"), turns)
                | _ => some (.ok (), turns)
          | _ => waitForAck codec expectedId deadline turns
        | _ => waitForAck codec expectedId deadline turns

/-! ## Sending -/

/-- Where a packet goes. -/
inductive PacketDestination where
  | localNode
  | broadcast
  | node (id : UInt32)
  deriving DecidableEq, Repr

/-- The arguments of `send_mesh_packet`. -/
structure MeshSend where
  packetData : Bytes
  portNum : Int32
  destination : PacketDestination
  channel : ℕ
  wantAck : Bool
  wantResponse : Bool
  echoResponse : Bool
  deriving DecidableEq

/-- One call of `send_mesh_packet`: its error, or the packet id it has echoed to the
router; and the time afterwards. -/
structure Attempt where
  send : MeshSend → Except String (Option UInt32)
  start : Instant

/-- What the radio is going to do. -/
structure Script where
  attempts : List Attempt
  turns : List Turn

/-- A transport for fragments, over its state; `none` is a call that does not return. -/
structure FragmentTransport (σ : Type) where
  sendFragment : Bytes → Int32 → PacketDestination → Bool → σ →
    Option (Except String Unit × σ)

structure RadioTransport where
  codec : RoutingCodec
  channel : ℕ
  ackTimeout : Duration

/-- The call of `send_mesh_packet` for a fragment. -/
def RadioTransport.meshSend (radio : RadioTransport) (fragment : Bytes) (portNum : Int32)
    (destination : PacketDestination) (wantAck : Bool) : MeshSend where
  packetData := fragment
  portNum := portNum
  destination := destination
  channel := radio.channel
  wantAck := wantAck
  wantResponse := false
  echoResponse := true

/-- Send a fragment and, if asked to, wait for its acknowledgement. -/
def RadioTransport.sendFragment (radio : RadioTransport) (fragment : Bytes) (portNum : Int32)
    (destination : PacketDestination) (wantAck : Bool) (s : Script) :
    Option (Except String Unit × Script) :=
  match s.attempts with
  | [] => none
  | attempt :: attempts =>
    match attempt.send (radio.meshSend fragment portNum destination wantAck) with
    | .error e => some (.error e, { s with attempts := attempts })
    | .ok lastSentId =>
      if ¬ wantAck then some (.ok (), { s with attempts := attempts })
      else
        match lastSentId with
        | none =>
          some (.error "send_mesh_packet did not echo back a packet id",
            { s with attempts := attempts })
        | some packetId =>
          (waitForAck radio.codec packetId (attempt.start + radio.ackTimeout) s.turns).map
            fun (result, turns) => (result, ⟨attempts, turns⟩)

def RadioTransport.transport (radio : RadioTransport) : FragmentTransport Script :=
  ⟨radio.sendFragment⟩

/-- Submit fragments in order, from a given index on, until one fails. -/
def submitFragments {σ : Type} (transport : FragmentTransport σ) (portNum : Int32)
    (destination : PacketDestination) :
    ℕ → List Bytes → σ → Option (Except (ℕ × String) Unit × σ)
  | _, [], s => some (.ok (), s)
  | index, fragment :: fragments, s =>
    match transport.sendFragment fragment portNum destination true s with
    | none => none
    | some (.error e, s) => some (.error (index, e), s)
    | some (.ok (), s) => submitFragments transport portNum destination (index + 1) fragments s

end Sensor
end Robins
