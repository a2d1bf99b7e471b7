import Robins.Sensor.Submit

/-!
# What a successful submission has been told

A wait ends well exactly when the first routing reply for the packet comes in time and reports no
error: `waitForAck_eq_ok_iff` finds it behind everything the loop skips, which is other traffic and
replies for other packets.  From there `Answered` follows a whole submission, fragment by fragment,
and notes the nodes the replies come from.

`Confirmed` is what success is meant to say, that the gateway itself has acknowledged the fragment.
As the loop does not look at the origin of a reply, `confirmed_iff` says when that is so: when the
first reply to each fragment is the gateway's.  The condition is one on what the radio is going to
do; how the loop goes does not come into it.
-/

namespace Robins
namespace Sensor

open Meshtastic

/-! ## When a wait ends well -/

/-- The routing reply for a packet id that a message of the radio brings, with the node
it comes from. -/
def routingReply (id : UInt32) (packet : FromRadio) : Option (UInt32 × Bytes) :=
  match packet.payloadVariant with
  | some (.packet meshPacket) =>
    match meshPacket.payloadVariant with
    | some (.decoded data) =>
      if data.portnum = routingApp ∧ data.requestId = id then
        some (meshPacket.sender, data.payload)
      else none
    | _ => none
  | _ => none

/-- A node acknowledges a packet, and reports no error. -/
def Acknowledges (codec : RoutingCodec) (id origin : UInt32) (packet : FromRadio) : Prop :=
  ∃ payload routing, routingReply id packet = some (origin, payload) ∧
    codec.decode payload = .ok routing ∧
    ∀ err, routing.variant = some (.errorReason err) → err = errorNone

/-- A turn that lets the loop go on: in time, and no reply for this packet. -/
def Skipped (id : UInt32) (deadline : Instant) (turn : Turn) : Prop :=
  turn.now < deadline ∧ ∃ packet, turn.received = .packet packet ∧ routingReply id packet = none

/-- The first reply for the packet comes in time and acknowledges it. -/
def FirstAck (codec : RoutingCodec) (id : UInt32) (deadline : Instant) (turns : List Turn)
    (origin : UInt32) (rest : List Turn) : Prop :=
  ∃ skipped now packet, turns = skipped ++ ⟨now, .packet packet⟩ :: rest ∧
    (∀ turn ∈ skipped, Skipped id deadline turn) ∧ now < deadline ∧
    Acknowledges codec id origin packet

section

variable {codec : RoutingCodec} {id origin : UInt32} {deadline : Instant} {turns rest : List Turn}

/-- What a routing reply means for the wait it ends. -/
def ackResult (codec : RoutingCodec) (id : UInt32) (payload : Bytes) : Except String Unit :=
  match codec.decode payload with
  | .error e => .error ("failed to decode routing ack for 0x" ++ hex8 id ++ ": " ++ e)
  | .ok routing =>
    match routing.variant with
    | some (.errorReason err) =>
      if err = errorNone then .ok ()
      else .error ("mesh reported delivery failure: " ++ (codec.errorName err).getD "UNKNOWN")
    | _ => .ok ()

theorem ackResult_eq_ok_iff {payload : Bytes} :
    ackResult codec id payload = .ok () ↔ ∃ routing, codec.decode payload = .ok routing ∧
      ∀ err, routing.variant = some (.errorReason err) → err = errorNone := by
  unfold ackResult
  cases hdecode : codec.decode payload with
  | error e => simp
  | ok routing =>
    dsimp only
    rcases hvariant : routing.variant with _ | err | _
    · simp [hvariant]
    · by_cases herr : err = errorNone
      · simp [hvariant, herr]
      · simp [hvariant, herr]
    · simp [hvariant]

/-- **One turn of the loop** that brings a packet in time: a reply for the packet id ends the
wait, and anything else lets it go on. -/
theorem waitForAck_packet {now : Instant} {packet : FromRadio} (h : now < deadline) :
    waitForAck codec id deadline (⟨now, .packet packet⟩ :: turns) =
      match routingReply id packet with
      | none => waitForAck codec id deadline turns
      | some reply => some (ackResult codec id reply.2, turns) := by
  have hleft : ¬ deadline - now = 0 := Nat.sub_ne_zero_of_lt h
  rw [waitForAck, if_neg hleft]
  unfold routingReply
  rcases packet with ⟨_ | ⟨⟨meshSender, pkiEncrypted, _ | ⟨data⟩ | bytes⟩⟩ | _⟩
  · rfl
  · rfl
  · dsimp only
    by_cases hreply : data.portnum = routingApp ∧ data.requestId = id
    · have hnot : ¬ (data.portnum ≠ routingApp ∨ data.requestId ≠ id) := by
        rintro (h | h)
        · exact h hreply.1
        · exact h hreply.2
      rw [if_pos hreply, if_neg hnot]
      dsimp only
      unfold ackResult
      cases codec.decode data.payload with
      | error e => rfl
      | ok routing =>
        dsimp only
        rcases routing.variant with _ | err | _
        · rfl
        · dsimp only
          split <;> rfl
        · rfl
    · rw [if_neg hreply, if_pos (not_and_or.mp hreply)]
  · rfl
  · rfl

/-- The first turn is skipped, or it brings the acknowledgement. -/
theorem firstAck_cons_iff {turn : Turn} :
    FirstAck codec id deadline (turn :: turns) origin rest ↔
      (Skipped id deadline turn ∧ FirstAck codec id deadline turns origin rest) ∨
      (turn.now < deadline ∧ turns = rest ∧
        ∃ packet, turn.received = .packet packet ∧ Acknowledges codec id origin packet) := by
  constructor
  · rintro ⟨_ | ⟨t, skipped⟩, now, packet, heq, hskipped, hnow, hack⟩
    · obtain ⟨rfl, rfl⟩ := List.cons.inj heq
      exact .inr ⟨hnow, rfl, packet, rfl, hack⟩
    · obtain ⟨rfl, rfl⟩ := List.cons.inj heq
      obtain ⟨hturn, hrest⟩ := List.forall_mem_cons.mp hskipped
      exact .inl ⟨hturn, skipped, now, packet, rfl, hrest, hnow, hack⟩
  · rintro (⟨hturn, skipped, now, packet, rfl, hskipped, hnow, hack⟩ |
      ⟨hnow, rfl, packet, hpacket, hack⟩)
    · exact ⟨turn :: skipped, now, packet, rfl, List.forall_mem_cons.mpr ⟨hturn, hskipped⟩, hnow,
        hack⟩
    · obtain ⟨now, received⟩ := turn
      obtain rfl : received = .packet packet := hpacket
      exact ⟨[], now, packet, rfl, by simp, hnow, hack⟩

/-- A turn that brings no packet in time ends the wait, and not well. -/
theorem not_firstAck_cons {turn : Turn}
    (h : ¬ turn.now < deadline ∨ ∀ packet, turn.received ≠ .packet packet) :
    ¬ FirstAck codec id deadline (turn :: turns) origin rest := by
  rw [firstAck_cons_iff]
  rintro (⟨⟨hnow, packet, hpacket, -⟩, -⟩ | ⟨hnow, -, packet, hpacket, -⟩)
  all_goals
    rcases h with h | h
    · exact h hnow
    · exact h packet hpacket

/-- **A wait ends well exactly when the first reply acknowledges.**  The induction is on the
turns; each is skipped, or is the one that decides. -/
theorem waitForAck_eq_ok_iff :
    waitForAck codec id deadline turns = some (.ok (), rest) ↔
      ∃ origin, FirstAck codec id deadline turns origin rest := by
  induction turns with
  | nil =>
    refine iff_of_false (by simp [waitForAck]) ?_
    rintro ⟨origin, skipped, now, packet, heq, -⟩
    exact absurd heq (by simp)
  | cons turn turns ih =>
    obtain ⟨now, received⟩ := turn
    by_cases hnow : now < deadline
    · have hleft : ¬ deadline - now = 0 := Nat.sub_ne_zero_of_lt hnow
      cases received with
      | closed =>
        refine iff_of_false ?_ fun ⟨_, hack⟩ => not_firstAck_cons (.inr (by simp)) hack
        rw [waitForAck, if_neg hleft]
        simp
      | elapsed =>
        refine iff_of_false ?_ fun ⟨_, hack⟩ => not_firstAck_cons (.inr (by simp)) hack
        rw [waitForAck, if_neg hleft]
        simp
      | packet packet =>
        rw [waitForAck_packet hnow]
        simp only [firstAck_cons_iff]
        cases hreply : routingReply id packet with
        | none =>
          show waitForAck codec id deadline turns = some (.ok (), rest) ↔ _
          rw [ih]
          refine exists_congr fun origin => ?_
          constructor
          · intro hack
            exact .inl ⟨⟨hnow, packet, rfl, hreply⟩, hack⟩
          · rintro (⟨-, hack⟩ | ⟨-, -, packet', hpacket, payload, routing, hother, -⟩)
            · exact hack
            · obtain rfl := Received.packet.inj hpacket
              rw [hreply] at hother
              exact absurd hother (by simp)
        | some reply =>
          obtain ⟨origin, payload⟩ := reply
          show some (ackResult codec id payload, turns) = some (.ok (), rest) ↔ _
          constructor
          · intro h
            obtain ⟨hresult, rfl⟩ := Prod.mk.inj (Option.some.inj h)
            obtain ⟨routing, hdecode, herr⟩ := ackResult_eq_ok_iff.mp hresult
            exact ⟨origin, .inr ⟨hnow, rfl, packet, rfl, payload, routing, hreply, hdecode, herr⟩⟩
          · rintro ⟨origin', ⟨⟨-, packet', hpacket, hnone⟩, -⟩ |
              ⟨-, rfl, packet', hpacket, payload', routing, hother, hdecode, herr⟩⟩
            · obtain rfl := Received.packet.inj hpacket
              rw [hreply] at hnone
              exact absurd hnone (by simp)
            · obtain rfl := Received.packet.inj hpacket
              rw [hreply] at hother
              obtain ⟨rfl, rfl⟩ := Prod.mk.inj (Option.some.inj hother)
              rw [ackResult_eq_ok_iff.mpr ⟨routing, hdecode, herr⟩]
    · -- the deadline has passed
      refine iff_of_false ?_ fun ⟨_, hack⟩ => not_firstAck_cons (.inl hnow) hack
      rw [waitForAck, if_pos (Nat.sub_eq_zero_of_le (Nat.not_lt.mp hnow))]
      simp

end

/-! ## When a submission ends well -/

section

variable (radio : RadioTransport) (portNum : Int32) (destination : PacketDestination)

/-- Fragments are sent one after another, and the first reply to each acknowledges it;
the list has the nodes these replies come from. -/
inductive Answered : List Bytes → Script → List UInt32 → Script → Prop where
  | nil (s : Script) : Answered [] s [] s
  | cons {fragment : Bytes} {fragments : List Bytes} {attempt : Attempt}
      {attempts : List Attempt} {id origin : UInt32} {turns rest : List Turn}
      {origins : List UInt32} {s : Script}
      (sent : attempt.send (radio.meshSend fragment portNum destination true) = .ok (some id))
      (acked : FirstAck radio.codec id (attempt.start + radio.ackTimeout) turns origin rest)
      (others : Answered fragments ⟨attempts, rest⟩ origins s) :
      Answered (fragment :: fragments) ⟨attempt :: attempts, turns⟩ (origin :: origins) s

/-- The wait for a fragment has received an acknowledgement of this node in time. -/
def Confirmed (node : UInt32) (fragment : Bytes) (s s' : Script) : Prop :=
  ∃ attempt attempts id consumed, s.attempts = attempt :: attempts ∧
    attempt.send (radio.meshSend fragment portNum destination true) = .ok (some id) ∧
    s.turns = consumed ++ s'.turns ∧
    ∃ turn ∈ consumed, turn.now < attempt.start + radio.ackTimeout ∧
      ∃ packet, turn.received = .packet packet ∧ Acknowledges radio.codec id node packet

/-- The wait for every fragment has. -/
def AllConfirmed (node : UInt32) : List Bytes → Script → Script → Prop
  | [], s, s' => s = s'
  | fragment :: fragments, s, s' => ∃ next,
    radio.sendFragment fragment portNum destination true s = some (.ok (), next) ∧
    Confirmed radio portNum destination node fragment s next ∧
    AllConfirmed node fragments next s'

variable {radio portNum destination}

/-- A fragment is sent successfully exactly when it is answered. -/
theorem sendFragment_eq_ok_iff {fragment : Bytes} {s s' : Script} :
    radio.sendFragment fragment portNum destination true s = some (.ok (), s') ↔
      ∃ origin, Answered radio portNum destination [fragment] s [origin] s' := by
  constructor
  · intro h
    obtain ⟨_ | ⟨attempt, attempts⟩, turns⟩ := s
    · exact absurd h (by simp [RadioTransport.sendFragment])
    · simp only [RadioTransport.sendFragment] at h
      cases hsend : attempt.send (radio.meshSend fragment portNum destination true) with
      | error e =>
        rw [hsend] at h
        exact absurd h (by simp)
      | ok lastSentId =>
        rw [hsend] at h
        cases lastSentId with
        | none => exact absurd h (by simp)
        | some id =>
          dsimp only at h
          rw [if_neg (not_not.mpr trivial)] at h
          obtain ⟨⟨result, rest⟩, hwait, heq⟩ := Option.map_eq_some_iff.mp h
          obtain ⟨rfl, rfl⟩ := Prod.mk.inj heq
          obtain ⟨origin, hack⟩ := waitForAck_eq_ok_iff.mp hwait
          exact ⟨origin, .cons hsend hack (.nil _)⟩
  · rintro ⟨origin, hanswered⟩
    cases hanswered with
    | cons hsend hack hothers =>
      cases hothers
      simp only [RadioTransport.sendFragment]
      rw [hsend]
      dsimp only
      rw [if_neg (not_not.mpr trivial), waitForAck_eq_ok_iff.mpr ⟨origin, hack⟩]
      rfl

/-- **Fragments are submitted successfully exactly when all are answered**, one after another,
each in what the one before has left of the script. -/
theorem submitFragments_eq_ok_iff {fragments : List Bytes} {index : ℕ} {s s' : Script} :
    submitFragments radio.transport portNum destination index fragments s = some (.ok (), s') ↔
      ∃ origins, Answered radio portNum destination fragments s origins s' := by
  induction fragments generalizing index s with
  | nil =>
    constructor
    · intro h
      obtain ⟨-, rfl⟩ := Prod.mk.inj (Option.some.inj h)
      exact ⟨[], .nil _⟩
    · rintro ⟨origins, hanswered⟩
      cases hanswered
      rfl
  | cons fragment fragments ih =>
    rw [submitFragments, RadioTransport.transport]
    dsimp only
    constructor
    · intro h
      cases hfirst : radio.sendFragment fragment portNum destination true s with
      | none =>
        rw [hfirst] at h
        exact absurd h (by simp)
      | some p =>
        obtain ⟨_ | _, next⟩ := p
        · rw [hfirst] at h
          exact absurd h (by simp)
        · rw [hfirst] at h
          obtain ⟨origins, hothers⟩ := ih.mp h
          obtain ⟨origin, hanswered⟩ := sendFragment_eq_ok_iff.mp hfirst
          cases hanswered with
          | cons hsend hack hnil =>
            cases hnil
            exact ⟨origin :: origins, .cons hsend hack hothers⟩
    · rintro ⟨origins, hanswered⟩
      cases hanswered with
      | cons hsend hack hothers =>
        rw [sendFragment_eq_ok_iff.mpr ⟨_, .cons hsend hack (.nil _)⟩]
        exact ih.mpr ⟨_, hothers⟩

/-- Who has confirmed a fragment that was answered. -/
theorem confirmed_iff_of_answered {fragment : Bytes} {s s' : Script} {origin node : UInt32}
    (h : Answered radio portNum destination [fragment] s [origin] s') :
    Confirmed radio portNum destination node fragment s s' ↔ origin = node := by
  cases h with
  | cons hsend hack hnil =>
    cases hnil
    obtain ⟨skipped, now, packet, rfl, hskipped, hnow, hacknowledges⟩ := hack
    constructor
    · rintro ⟨attempt, attempts, id, consumed, hattempts, hsend', hturns, turn, hturn, -, packet',
        hpacket, hother⟩
      obtain ⟨rfl, rfl⟩ := List.cons.inj hattempts
      rw [hsend] at hsend'
      obtain rfl := Option.some.inj (Except.ok.inj hsend')
      rw [List.append_cons] at hturns
      obtain rfl := List.append_cancel_right hturns
      obtain ⟨payload', routing', hreply', -⟩ := hother
      -- what was skipped is no reply, so the acknowledgement is the last turn
      rcases List.mem_append.mp hturn with hturn | hturn
      · obtain ⟨-, p, hp, hnone⟩ := hskipped turn hturn
        obtain rfl := Received.packet.inj (hp.symm.trans hpacket)
        rw [hreply'] at hnone
        exact absurd hnone (by simp)
      · obtain rfl := List.mem_singleton.mp hturn
        obtain rfl := Received.packet.inj hpacket
        obtain ⟨payload, routing, hreply, -⟩ := hacknowledges
        rw [hreply] at hreply'
        exact (Prod.mk.inj (Option.some.inj hreply')).1
    · rintro rfl
      exact ⟨_, _, _, skipped ++ [⟨now, .packet packet⟩], rfl, hsend, List.append_cons _ _ _, _,
        List.mem_append_right _ (List.mem_singleton_self _), hnow, packet, rfl, hacknowledges⟩

theorem allConfirmed_iff_of_answered {fragments : List Bytes} {s s' : Script}
    {origins : List UInt32} {node : UInt32}
    (h : Answered radio portNum destination fragments s origins s') :
    AllConfirmed radio portNum destination node fragments s s' ↔
      ∀ origin ∈ origins, origin = node := by
  induction h with
  | nil s => exact iff_of_true rfl (by simp)
  | @cons fragment fragments attempt attempts id origin turns rest origins s hsend hack _ ih =>
    have hfirst : Answered radio portNum destination [fragment] ⟨attempt :: attempts, turns⟩
        [origin] ⟨attempts, rest⟩ := .cons hsend hack (.nil _)
    have hok := sendFragment_eq_ok_iff.mpr ⟨_, hfirst⟩
    rw [AllConfirmed, List.forall_mem_cons, ← ih, ← confirmed_iff_of_answered hfirst]
    constructor
    · rintro ⟨next, hnext, hconfirmed, hothers⟩
      rw [hok] at hnext
      obtain ⟨-, rfl⟩ := Prod.mk.inj (Option.some.inj hnext)
      exact ⟨hconfirmed, hothers⟩
    · rintro ⟨hconfirmed, hothers⟩
      exact ⟨_, hok, hconfirmed, hothers⟩

end

/-- **When success is confirmed delivery.**  A fragment sent successfully has been
acknowledged by the gateway if and only if the first reply to it, should that reply
acknowledge it in time, comes from the gateway; and likewise for all fragments of a
submission. -/
theorem confirmed_iff (radio : RadioTransport) (portNum : Int32) (gateway : UInt32) :
    (∀ (fragment : Bytes) (s : Script),
      (∀ s', radio.sendFragment fragment portNum (.node gateway) true s = some (.ok (), s') →
        Confirmed radio portNum (.node gateway) gateway fragment s s') ↔
      ∀ origin s', Answered radio portNum (.node gateway) [fragment] s [origin] s' →
        origin = gateway) ∧
    (∀ (fragments : List Bytes) (s : Script),
      (∀ s', submitFragments radio.transport portNum (.node gateway) 0 fragments s =
          some (.ok (), s') →
        AllConfirmed radio portNum (.node gateway) gateway fragments s s') ↔
      ∀ origins s', Answered radio portNum (.node gateway) fragments s origins s' →
        ∀ origin ∈ origins, origin = gateway) := by
  constructor
  · intro fragment s
    constructor
    · intro h origin s' hanswered
      exact (confirmed_iff_of_answered hanswered).mp
        (h s' (sendFragment_eq_ok_iff.mpr ⟨origin, hanswered⟩))
    · intro h s' hok
      obtain ⟨origin, hanswered⟩ := sendFragment_eq_ok_iff.mp hok
      exact (confirmed_iff_of_answered hanswered).mpr (h origin s' hanswered)
  · intro fragments s
    constructor
    · intro h origins s' hanswered
      exact (allConfirmed_iff_of_answered hanswered).mp
        (h s' (submitFragments_eq_ok_iff.mpr ⟨origins, hanswered⟩))
    · intro h s' hok
      obtain ⟨origins, hanswered⟩ := submitFragments_eq_ok_iff.mp hok
      exact (allConfirmed_iff_of_answered hanswered).mpr (h origins s' hanswered)

/-- The routing code, for the reply without error; the other replies play no part below. -/
def plainCodec : RoutingCodec where
  decode payload :=
    if payload = [0x18, 0x00] then .ok ⟨some (.errorReason 0)⟩
    else .error "failed to decode Protobuf message"
  errorName err := if err = 0 then some "NONE" else none

/-- The radio that echoes packet id 1 and then, within the second, passes on this node's
reply to it. -/
def replyFrom (node : UInt32) : Script :=
  ⟨[⟨fun _ => .ok (some 1), 0⟩],
    [⟨1000, .packet ⟨some (.packet ⟨node, false, some (.decoded ⟨5, [0x18, 0x00], 1⟩)⟩)⟩⟩]⟩

/-- The reply of another node is taken for the gateway's. -/
theorem not_confirmed_replyFrom :
    (∃ s', RadioTransport.sendFragment ⟨plainCodec, 0, 30000⟩ [0x01, 7] 256 (.node 0xdeadbeef) true
        (replyFrom 7) = some (.ok (), s') ∧
      ¬ Confirmed ⟨plainCodec, 0, 30000⟩ 256 (.node 0xdeadbeef) 0xdeadbeef [0x01, 7]
        (replyFrom 7) s') ∧
    (∃ s', submitFragments (RadioTransport.transport ⟨plainCodec, 0, 30000⟩) 256
        (.node 0xdeadbeef) 0 [[0x01, 7]] (replyFrom 7) = some (.ok (), s') ∧
      ¬ AllConfirmed ⟨plainCodec, 0, 30000⟩ 256 (.node 0xdeadbeef) 0xdeadbeef [[0x01, 7]]
        (replyFrom 7) s') := by
  have hanswered : Answered ⟨plainCodec, 0, 30000⟩ 256 (.node 0xdeadbeef) [[0x01, 7]]
      (replyFrom 7) [7] ⟨[], []⟩ := by
    refine .cons rfl ⟨[], 1000, _, rfl, by simp, by decide, [0x18, 0x00],
      ⟨some (.errorReason 0)⟩, rfl, rfl, ?_⟩ (.nil _)
    intro err herr
    exact (Routing.Variant.errorReason.inj (Option.some.inj herr)).symm
  refine ⟨⟨_, sendFragment_eq_ok_iff.mpr ⟨7, hanswered⟩, fun h => ?_⟩,
    ⟨_, submitFragments_eq_ok_iff.mpr ⟨[7], hanswered⟩, fun h => ?_⟩⟩
  · exact absurd ((confirmed_iff_of_answered hanswered).mp h) (by decide)
  · exact absurd ((allConfirmed_iff_of_answered hanswered).mp h 7 List.mem_cons_self) (by decide)

end Sensor
end Robins
