import Robins.Anchor.Model
import Robins.Gateway.Config
import Robins.Lib.CappedGrowth
import Robins.Meshtastic.Bookkeeping
import Robins.Meshtastic.Soundness

/-!
# The adapter

The adapter opens a serial session, serves it until it ends, and waits before it opens the next;
the wait doubles with every attempt that fails, up to a limit, and starts again after one that did
not.  It stops when it is shut down, or when the pipeline is gone.

## Where a message comes from

Each session has a reassembler of its own.  So a message that the pipeline is given can be traced
back to the packets of one session: to one of them, or to fragments that no other message was made
of.  The history of a run is read twice for this: `traced` is what the reassemblers have seen, with
a loss wherever a session begins, and `fresh` the packets since the last message under a key was
complete.  `Held` connects them: whatever is stored under a key has come in a fresh packet of the
session that is open.  A packet that completes a message uses them up, and this is why two
messages never share a fragment (`adapter_traced`).

## How the adapter waits

Between two sessions only the waits count.  `failures` is how many have come since the last
session that could be opened, and `delay` the wait that is then due; `Backs` says that the state
holds this wait, and so each one in a run is the one the law asks for.  A shutdown is noticed while
the adapter waits or serves, and not while it connects; so one more connection may come after the
request and one more wait, and `Control.late` counts them by where the adapter has got to
(`adapter_patient`).
-/

namespace Robins
namespace Meshtastic

open Protocol Pipeline CappedGrowth

/-! ## State -/

inductive Control where
  /-- At the top of its loop. -/
  | top
  | connecting
  | serving (session : Session)
  /-- Before the next attempt. -/
  | waiting
  | stopped
  /-- The wait cannot be doubled. -/
  | panicked

structure Adapter where
  backoff : Duration
  shutdown : Bool
  control : Control

/-- The first wait, and the limit of all. -/
def minBackoff (config : Gateway.MeshtasticConfig) : Duration :=
  Duration.ofSecs (max config.reconnectMinSecs 1)

def maxBackoff (config : Gateway.MeshtasticConfig) : Duration :=
  Duration.ofSecs (max config.reconnectMaxSecs (max config.reconnectMinSecs 1))

/-- The start of `run_reconnect_loop`. -/
def Adapter.start (config : Gateway.MeshtasticConfig) : Adapter :=
  ⟨minBackoff config, false, .top⟩

inductive AdapterEvent where
  | requestShutdown
  /-- The adapter goes on from the top of its loop. -/
  | turn
  /-- The device was opened and configured, or was not. -/
  | connect (ok : Bool)
  | session (e : SessionEvent)
  | slept
  /-- The wait is left for the shutdown. -/
  | stop

inductive AdapterObservation where
  | opened
  | received (packet : FromRadio)
  | gathered (a : Observation)
  /-- A packet has completed a message for the pipeline. -/
  | made (message : IngressMessage)
  | delivered (message : IngressMessage)
  /-- The pipeline is gone. -/
  | refused (message : IngressMessage)
  | waits (delay : Duration)
  deriving DecidableEq

/-! ## Steps -/

def Adapter.wait (s : Adapter) (backoff : Duration) : Adapter × List AdapterObservation :=
  ({ s with backoff, control := .waiting }, [.waits backoff])

section

variable (prost : Prost) (sha256 : Sha256) (config : Gateway.MeshtasticConfig)

/-- What the reassembler has made of a packet. -/
def gatheredFrom (r : Reassembler) (now : Instant) (packet : FromRadio) :
    List AdapterObservation :=
  match packetFragment config.toMeshtasticConfig packet with
  | none => []
  | some (meshSender, fragment) =>
    match accept sha256 r now meshSender fragment with
    | none => []
    | some (outcome, _) => [.gathered (.accepted meshSender fragment outcome)]

/-- What is seen of an event of a session. -/
def shown (session session' : Session) : SessionEvent → List AdapterObservation
  | .packet now _ packet =>
    .received packet :: (gatheredFrom sha256 config session.reassembler now packet ++
      match session'.phase with
      | .sending message => [.made message]
      | _ => [])
  | .sweep now => [.gathered (.swept (expiredKeys session.reassembler now))]
  | .sent ok =>
    match session.phase with
    | .sending message => if ok then [.delivered message] else [.refused message]
    | _ => []
  | .shutdown | .closed => []

def Adapter.afterSession (s : Adapter) (session : Session) :
    Adapter × List AdapterObservation :=
  match session.phase with
  | .ended .shutdown => ({ s with control := .stopped }, [])
  -- the session was connected, so the wait starts again
  | .ended .disconnected => s.wait (minBackoff config)
  | _ => ({ s with control := .serving session }, [])

def adapterStep (s : Adapter) (e : AdapterEvent) :
    Option (Adapter × List AdapterObservation) :=
  match e, s.control with
  | .requestShutdown, _ => some ({ s with shutdown := true }, [])
  | .turn, .top =>
    some ({ s with control := if s.shutdown then .stopped else .connecting }, [])
  | .connect ok, .connecting =>
    if ok ∧ config.device.isSome then
      some ({ s with control := .serving (.start config.toMeshtasticConfig) }, [.opened])
    else some (s.wait s.backoff)
  | .session e, .serving session =>
    if e = .shutdown ∧ ¬ s.shutdown then none
    else
      (sessionStep prost sha256 config.toMeshtasticConfig session e).map fun p =>
        let next := s.afterSession config p.1
        (next.1, shown sha256 config session p.1 e ++ next.2)
  | .slept, .waiting =>
    if Anchor.durationMax < s.backoff * 2 then some ({ s with control := .panicked }, [])
    else
      some ({ s with backoff := min (s.backoff * 2) (maxBackoff config), control := .top }, [])
  | .stop, .waiting => if s.shutdown then some ({ s with control := .stopped }, []) else none
  | _, _ => none

def adapter : EventMachine Adapter AdapterEvent AdapterObservation :=
  ⟨adapterStep prost sha256 config⟩

/-! ## What a step can do -/

inductive AdapterMove (s : Adapter) : Adapter → List AdapterObservation → Prop
  | requestShutdown : AdapterMove s { s with shutdown := true } []
  | turn (hcontrol : s.control = .top) :
    AdapterMove s { s with control := if s.shutdown then .stopped else .connecting } []
  | connected (hcontrol : s.control = .connecting) :
    AdapterMove s { s with control := .serving (.start config.toMeshtasticConfig) } [.opened]
  | failed (hcontrol : s.control = .connecting) :
    AdapterMove s { s with control := .waiting } [.waits s.backoff]
  | packet {session : Session} {now : Instant} {receivedAt : BatchStore.Timestamp}
    {packet : FromRadio} {message : Option IngressMessage} {r : Reassembler} {m m' : Metrics}
    (hcontrol : s.control = .serving session)
    (hhandled : handlePacket prost sha256 config.toMeshtasticConfig session.reassembler
      session.metrics now receivedAt packet = some (message, r, m)) :
    AdapterMove s
      { s with control := .serving ⟨r, m', message.elim .receiving .sending⟩ }
      (.received packet :: (gatheredFrom sha256 config session.reassembler now packet ++
        message.toList.map .made))
  | sweep {session : Session} {now : Instant} {m : Metrics}
    (hcontrol : s.control = .serving session) (hphase : session.phase = .receiving) :
    AdapterMove s
      { s with control := .serving ⟨(sweepExpired session.reassembler now).2, m, .receiving⟩ }
      [.gathered (.swept (expiredKeys session.reassembler now))]
  | sent {session : Session} {message : IngressMessage} (hcontrol : s.control = .serving session)
    (hphase : session.phase = .sending message) :
    AdapterMove s { s with control := .serving { session with phase := .receiving } }
      [.delivered message]
  | gone {session : Session} {message : IngressMessage} (hcontrol : s.control = .serving session)
    (hphase : session.phase = .sending message) :
    AdapterMove s { s with control := .stopped } [.refused message]
  | closed {session : Session} (hcontrol : s.control = .serving session) :
    AdapterMove s { s with backoff := minBackoff config, control := .waiting }
      [.waits (minBackoff config)]
  | slept (hcontrol : s.control = .waiting) (hfits : s.backoff * 2 ≤ Anchor.durationMax) :
    AdapterMove s
      { s with backoff := min (s.backoff * 2) (maxBackoff config), control := .top } []
  | overflow (hcontrol : s.control = .waiting) (hover : Anchor.durationMax < s.backoff * 2) :
    AdapterMove s { s with control := .panicked } []
  | stop (hshutdown : s.shutdown = true) : AdapterMove s { s with control := .stopped } []

variable {prost sha256 config} {s s' : Adapter} {e : AdapterEvent}
  {h o : List AdapterObservation}

theorem adapterMove_of_sessionStep {session session' : Session} {e : SessionEvent}
    {life : List Lifecycle} (hcontrol : s.control = .serving session)
    (hshutdown : e = .shutdown → s.shutdown = true)
    (hstep : sessionStep prost sha256 config.toMeshtasticConfig session e =
      some (session', life)) :
    AdapterMove prost sha256 config s (s.afterSession config session').1
      (shown sha256 config session session' e ++ (s.afterSession config session').2) := by
  cases e with
  | shutdown =>
    rw [sessionStep] at hstep
    split at hstep
    · exact absurd hstep (by simp)
    · obtain ⟨rfl, rfl⟩ := Prod.mk.inj (Option.some.inj hstep)
      exact .stop (hshutdown rfl)
  | sweep now =>
    rw [sessionStep] at hstep
    split at hstep
    · next hphase =>
      obtain ⟨rfl, rfl⟩ := Prod.mk.inj (Option.some.inj hstep)
      simp only [Adapter.afterSession, hphase, List.append_nil]
      exact .sweep hcontrol hphase
    · exact absurd hstep (by simp)
  | packet now receivedAt packet =>
    rw [sessionStep] at hstep
    split at hstep
    · obtain ⟨⟨message, r, m⟩, hhandled, heq⟩ := Option.map_eq_some_iff.mp hstep
      obtain ⟨rfl, rfl⟩ := Prod.mk.inj heq
      have hmove : AdapterMove prost sha256 config s
          ⟨s.backoff, s.shutdown, .serving ⟨r, { m with reassembly.pending := r.pendingLen },
            message.elim .receiving .sending⟩⟩
          (.received packet :: (gatheredFrom sha256 config session.reassembler now packet ++
            message.toList.map .made)) := .packet hcontrol hhandled
      cases message with
      | none => simpa [Adapter.afterSession, shown] using hmove
      | some message => simpa [Adapter.afterSession, shown] using hmove
    · exact absurd hstep (by simp)
  | closed =>
    rw [sessionStep] at hstep
    split at hstep
    · obtain ⟨rfl, rfl⟩ := Prod.mk.inj (Option.some.inj hstep)
      exact .closed hcontrol
    · exact absurd hstep (by simp)
  | sent ok =>
    rw [sessionStep] at hstep
    split at hstep
    · next message hphase =>
      obtain ⟨rfl, rfl⟩ := Prod.mk.inj (Option.some.inj hstep)
      cases ok with
      | true =>
        simp only [shown, hphase, if_true]
        exact .sent hcontrol hphase
      | false =>
        simp only [shown, hphase]
        exact .gone hcontrol hphase
    · exact absurd hstep (by simp)

theorem adapterMove_of_adapterStep (hstep : adapterStep prost sha256 config s e = some (s', o)) :
    AdapterMove prost sha256 config s s' o := by
  unfold adapterStep at hstep
  split at hstep
  · obtain ⟨rfl, rfl⟩ := Prod.mk.inj (Option.some.inj hstep)
    exact .requestShutdown
  · next hcontrol =>
    obtain ⟨rfl, rfl⟩ := Prod.mk.inj (Option.some.inj hstep)
    exact .turn hcontrol
  · next ok hcontrol =>
    split_ifs at hstep
    · obtain ⟨rfl, rfl⟩ := Prod.mk.inj (Option.some.inj hstep)
      exact .connected hcontrol
    · obtain ⟨rfl, rfl⟩ := Prod.mk.inj (Option.some.inj hstep)
      exact .failed hcontrol
  · next e session hcontrol =>
    split_ifs at hstep with hstop
    obtain ⟨⟨session', life⟩, hsession, heq⟩ := Option.map_eq_some_iff.mp hstep
    obtain ⟨rfl, rfl⟩ := Prod.mk.inj heq
    refine adapterMove_of_sessionStep hcontrol (fun he => ?_) hsession
    by_contra hnot
    exact hstop ⟨he, hnot⟩
  · next hcontrol =>
    split_ifs at hstep with hover
    · obtain ⟨rfl, rfl⟩ := Prod.mk.inj (Option.some.inj hstep)
      exact .overflow hcontrol hover
    · obtain ⟨rfl, rfl⟩ := Prod.mk.inj (Option.some.inj hstep)
      exact .slept hcontrol (not_lt.mp hover)
  · split_ifs at hstep with hshutdown
    obtain ⟨rfl, rfl⟩ := Prod.mk.inj (Option.some.inj hstep)
    exact .stop hshutdown
  · exact absurd hstep (by simp)

/-! ## Where a message comes from -/

variable (config) in
/-- The packet is from the sender, for the port and authenticated, and carries the frame. -/
def Authentic (packet : FromRadio) (sender : UInt32) (frame : Frame) : Prop :=
  ∃ data, packet = ⟨some (.packet ⟨sender, true, some (.decoded data)⟩)⟩ ∧
    data.portnum = config.portNum.toInt32 ∧ parseFrame data.payload = .ok frame

theorem packetFragment_eq_some_iff {packet : FromRadio} {sender : UInt32} {f : FragmentFrame} :
    packetFragment config.toMeshtasticConfig packet = some (sender, f) ↔
      Authentic config packet sender (.fragment f) := by
  constructor
  · intro hpacket
    unfold packetFragment at hpacket
    rcases packet with ⟨_ | ⟨⟨sender', pkiEncrypted, _ | ⟨data⟩ | bytes⟩⟩ | _⟩
    · exact absurd hpacket (by simp)
    · exact absurd hpacket (by simp)
    · dsimp only at hpacket
      split_ifs at hpacket with hrefused
      obtain ⟨hport, hpki⟩ := not_or.mp hrefused
      split at hpacket
      · next f' hparse =>
        obtain ⟨rfl, rfl⟩ := Prod.mk.inj (Option.some.inj hpacket)
        obtain rfl : pkiEncrypted = true := by simpa using hpki
        exact ⟨data, rfl, not_not.mp hport, hparse⟩
      · exact absurd hpacket (by simp)
    · exact absurd hpacket (by simp)
    · exact absurd hpacket (by simp)
  · rintro ⟨data, rfl, hport, hparse⟩
    simp [packetFragment, hport, hparse]

/-- A complete payload that is handed on is an envelope. -/
theorem submitEnvelope_eq_some {sender : UInt32} {receivedAt : BatchStore.Timestamp}
    {raw : Bytes} {m : Metrics} {message : IngressMessage}
    (hmessage : (submitEnvelope prost sender receivedAt raw m).1 = some message) :
    message.rawEnvelope = raw ∧ message.transport = meshtasticMetadata sender ∧
      decodeEnvelope prost raw = .ok message.envelope := by
  unfold submitEnvelope at hmessage
  split at hmessage
  · exact absurd hmessage (by simp)
  · next envelope hdecode =>
    obtain rfl := Option.some.inj hmessage
    exact ⟨rfl, rfl, hdecode⟩

/-- A packet that makes a message carries it, or completes it. -/
theorem exists_of_handlePacket {r r' : Reassembler} {m m' : Metrics} {now : Instant}
    {receivedAt : BatchStore.Timestamp} {packet : FromRadio} {message : IngressMessage}
    (hhandled : handlePacket prost sha256 config.toMeshtasticConfig r m now receivedAt packet =
      some (some message, r', m')) :
    ∃ sender, message.transport = meshtasticMetadata sender ∧
      decodeEnvelope prost message.rawEnvelope = .ok message.envelope ∧
      (Authentic config packet sender (.single message.rawEnvelope) ∨
        ∃ f r₁, Authentic config packet sender (.fragment f) ∧
          accept sha256 r now sender f = some (.complete message.rawEnvelope, r₁)) := by
  unfold handlePacket at hhandled
  rcases packet with ⟨_ | ⟨⟨sender, pkiEncrypted, _ | ⟨data⟩ | bytes⟩⟩ | _⟩
  · exact absurd hhandled (by simp)
  · exact absurd hhandled (by simp)
  · dsimp only at hhandled
    split_ifs at hhandled with hport hpki
    · exact absurd hhandled (by simp)
    · subst hpki
      refine ⟨sender, ?_⟩
      cases hparse : parseFrame data.payload with
      | error err =>
        rw [hparse] at hhandled
        exact absurd hhandled (by simp)
      | ok frame =>
        have hauthentic : Authentic config
            ⟨some (.packet ⟨sender, true, some (.decoded data)⟩)⟩ sender frame :=
          ⟨data, rfl, not_not.mp hport, hparse⟩
        rw [hparse] at hhandled
        cases frame with
        | single bytes =>
          obtain ⟨rfl, htransport, hdecode⟩ :=
            submitEnvelope_eq_some (Prod.mk.inj (Option.some.inj hhandled)).1
          exact ⟨htransport, hdecode, .inl hauthentic⟩
        | fragment f =>
          dsimp only at hhandled
          cases haccept : accept sha256 r now sender f with
          | none =>
            rw [haccept] at hhandled
            exact absurd hhandled (by simp)
          | some answer =>
            rw [haccept] at hhandled
            rcases answer with ⟨_ | payload | _ | _ | reason, r₁⟩
            · exact absurd hhandled (by simp)
            · obtain ⟨rfl, htransport, hdecode⟩ :=
                submitEnvelope_eq_some (Prod.mk.inj (Option.some.inj hhandled)).1
              exact ⟨htransport, hdecode, .inr ⟨f, r₁, hauthentic, haccept⟩⟩
            · exact absurd hhandled (by simp)
            · exact absurd hhandled (by simp)
            · exact absurd hhandled (by simp)
    · exact absurd hhandled (by simp)
  · exact absurd hhandled (by simp)
  · exact absurd hhandled (by simp)

/-! ## Parts of a history

The reassembler of a session sees fragments, sweeps and its end; the history of the adapter has
packets, and more than one session.  `traced` makes the first out of the second, and it is this
list that the soundness of the reassembler is applied to. -/

/-- What the reassemblers have seen: each session begins with an empty one. -/
def traced (h : List AdapterObservation) : List Observation :=
  h.filterMap fun
    | .opened => some .cleared
    | .gathered a => some a
    | _ => none

@[simp] theorem traced_append (h k : List AdapterObservation) :
    traced (h ++ k) = traced h ++ traced k := List.filterMap_append

/-- One observation, for one key. -/
def freshStep (key : Key) (packets : List FromRadio) : AdapterObservation → List FromRadio
  | .opened => []
  | .received packet => packets ++ [packet]
  | .gathered (.accepted sender f (.complete _)) =>
    if key = ⟨sender, f.messageId⟩ then [] else packets
  | _ => packets

/-- The packets of the session since the last message under the key was complete. -/
def fresh (key : Key) (h : List AdapterObservation) : List FromRadio :=
  h.foldl (freshStep key) []

theorem fresh_append_singleton (key : Key) (h : List AdapterObservation)
    (a : AdapterObservation) : fresh key (h ++ [a]) = freshStep key (fresh key h) a := by
  rw [fresh, List.foldl_append]
  rfl

variable (prost sha256 config) in
/-- What must have been seen before. -/
def Accounts (before : List AdapterObservation) : AdapterObservation → Prop
  /- A payload is complete when all its fragments have come, in fresh packets of the sender. -/
  | .gathered (.accepted sender f (.complete payload)) =>
    payload.length ≤ config.maxReassembledBytes ∧ messageId sha256 payload = f.messageId ∧
      ∃ frames, InOrder frames f.count.toNat payload ∧ ∀ g ∈ frames, g.messageId = f.messageId ∧
        ∃ packet ∈ fresh ⟨sender, f.messageId⟩ before, Authentic config packet sender (.fragment g)
  /- A message is an envelope, in the packet before it or in the payload complete before it. -/
  | .made message =>
    decodeEnvelope prost message.rawEnvelope = .ok message.envelope ∧
      ∃ sender, message.transport = meshtasticMetadata sender ∧
        ((∃ packet, before.getLast? = some (.received packet) ∧
            Authentic config packet sender (.single message.rawEnvelope)) ∨
          ∃ f, before.getLast? =
            some (.gathered (.accepted sender f (.complete message.rawEnvelope))))
  | .delivered message | .refused message => before.getLast? = some (.made message)
  | _ => True

variable (config) in
/-- The fragments under a key have come in fresh packets. -/
def Held (h : List AdapterObservation) : Prop :=
  ∀ key, ∀ f ∈ live key (traced h), f.messageId = key.messageId ∧
    ∃ packet ∈ fresh key h, Authentic config packet key.sender (.fragment f)

theorem Held.opened : Held config (h ++ [.opened]) := by
  intro key f hf
  rw [traced_append] at hf
  have hnil : live key (traced h ++ [.cleared]) = [] := by
    rw [live_append_singleton]
    rfl
  exact absurd (hnil ▸ hf) List.not_mem_nil

theorem Held.received (hh : Held config h) (packet : FromRadio) :
    Held config (h ++ [.received packet]) := by
  intro key f hf
  rw [traced_append, show traced [.received packet] = [] from rfl, List.append_nil] at hf
  obtain ⟨hid, packet', hmem, hauthentic⟩ := hh key f hf
  refine ⟨hid, packet', ?_, hauthentic⟩
  rw [fresh_append_singleton]
  exact List.mem_append_left _ hmem

/-- An observation that neither session nor packet nor reassembler shows changes nothing. -/
theorem Held.quiet (hh : Held config h) {a : AdapterObservation} (htraced : traced [a] = [])
    (hfresh : ∀ key packets, freshStep key packets a = packets) : Held config (h ++ [a]) := by
  intro key f hf
  rw [traced_append, htraced, List.append_nil] at hf
  rw [fresh_append_singleton, hfresh]
  exact hh key f hf

theorem Held.swept (hh : Held config h) (keys : List Key) :
    Held config (h ++ [.gathered (.swept keys)]) := by
  intro key f hf
  rw [traced_append, show traced [.gathered (.swept keys)] = [.swept keys] from rfl,
    live_append_singleton] at hf
  rw [fresh_append_singleton]
  rw [liveStep] at hf
  split_ifs at hf
  · exact absurd hf List.not_mem_nil
  · exact hh key f hf

theorem Held.accepted (hh : Held config h) {packet : FromRadio} {sender : UInt32}
    {f : FragmentFrame} (hmem : packet ∈ fresh ⟨sender, f.messageId⟩ h)
    (hauthentic : Authentic config packet sender (.fragment f)) (outcome : Outcome) :
    Held config (h ++ [.gathered (.accepted sender f outcome)]) := by
  intro key g hg
  rw [traced_append, show traced [.gathered (.accepted sender f outcome)] =
    [.accepted sender f outcome] from rfl, live_append_singleton, liveStep] at hg
  rw [fresh_append_singleton]
  split_ifs at hg with hkey
  · subst hkey
    cases outcome with
    | progress =>
      rcases List.mem_append.mp hg with hg | hg
      · exact hh _ g hg
      · obtain rfl := List.mem_singleton.mp hg
        exact ⟨rfl, packet, hmem, hauthentic⟩
    | duplicateIgnored => exact hh _ g hg
    | complete | conflict | rejected => exact absurd hg List.not_mem_nil
  · obtain ⟨hid, packet', hmem', hauthentic'⟩ := hh key g hg
    refine ⟨hid, packet', ?_, hauthentic'⟩
    cases outcome with
    | complete payload =>
      rw [freshStep, if_neg hkey]
      exact hmem'
    | progress | duplicateIgnored | conflict | rejected => exact hmem'

/-! ## Every run accounts for its messages

A step adds a few observations, and each has to be accounted for by those before it.  Only packets
are of interest: a packet shows itself first, then what became of its fragment, then the message
it has made, and each of the three is justified by the one before. -/

variable (prost sha256 config) in
/-- All messages are accounted for, and the open session knows what it holds. -/
structure Traced (h : List AdapterObservation) (s : Adapter) : Prop where
  accounts : EventMachine.Justified (Accounts prost sha256 config) h
  held : Held config h
  tracks : ∀ session, s.control = .serving session →
    Tracks (.ofConfig config.toMeshtasticConfig) (fun key => live key (traced h))
      session.reassembler
  sending : ∀ session message, s.control = .serving session → session.phase = .sending message →
    h.getLast? = some (.made message)

/-- A fragment that was accepted is accounted for, if it was in the last packet. -/
theorem accounts_accepted (hheld : Held config h) {r r' : Reassembler}
    (ht : Tracks (.ofConfig config.toMeshtasticConfig) (fun key => live key (traced h)) r)
    {packet : FromRadio} {sender : UInt32} {f : FragmentFrame} {now : Instant} {outcome : Outcome}
    (hmem : packet ∈ fresh ⟨sender, f.messageId⟩ h)
    (hauthentic : Authentic config packet sender (.fragment f))
    (haccept : accept sha256 r now sender f = some (outcome, r')) :
    Accounts prost sha256 config h (.gathered (.accepted sender f outcome)) := by
  have hv : f.Valid := by
    obtain ⟨data, -, -, hparse⟩ := hauthentic
    exact valid_of_parseFrame hparse
  obtain ⟨r₁, haccept', -⟩ := accept_eq sha256 ht hv now sender
  have hanswer : Answer sha256 (.ofConfig config.toMeshtasticConfig) r (traced h) sender f _ :=
    answer_gather ht hv sender r.assemblies.keys.length (senderCount r sender)
  obtain ⟨heq, -⟩ := Prod.mk.inj (Option.some.inj (haccept'.symm.trans haccept))
  rw [heq] at hanswer
  cases outcome with
  | complete payload =>
    obtain ⟨hle, hid, horder⟩ := hanswer.complete payload rfl
    refine ⟨hle, hid, _, horder, fun g hg => ?_⟩
    rcases List.mem_append.mp hg with hg | hg
    · exact hheld _ g hg
    · obtain rfl := List.mem_singleton.mp hg
      exact ⟨rfl, packet, hmem, hauthentic⟩
  | progress | duplicateIgnored | conflict | rejected => trivial

theorem Traced.of_quiet (w : Traced prost sha256 config h s)
    (hcontrol : ∀ session, s'.control ≠ .serving session) {a : AdapterObservation}
    (hjustified : Accounts prost sha256 config h a) (htraced : traced [a] = [])
    (hfresh : ∀ key packets, freshStep key packets a = packets) :
    Traced prost sha256 config (h ++ [a]) s' where
  accounts := EventMachine.justified_append_singleton.mpr ⟨w.accounts, hjustified⟩
  held := w.held.quiet htraced hfresh
  tracks session heq := absurd heq (hcontrol session)
  sending session _ heq _ := absurd heq (hcontrol session)

theorem Traced.of_nil (w : Traced prost sha256 config h s)
    (hcontrol : ∀ session, s'.control = .serving session → s.control = .serving session) :
    Traced prost sha256 config (h ++ []) s' := by
  rw [List.append_nil]
  exact ⟨w.accounts, w.held, fun session heq => w.tracks session (hcontrol session heq),
    fun session message heq => w.sending session message (hcontrol session heq)⟩

/-- **A packet is accounted for**: itself, the fragment in it, and the message it makes. -/
theorem Traced.packet (w : Traced prost sha256 config h s) {session : Session} {now : Instant}
    {receivedAt : BatchStore.Timestamp} {packet : FromRadio} {message : Option IngressMessage}
    {r : Reassembler} {m m' : Metrics} (hcontrol : s.control = .serving session)
    (hhandled : handlePacket prost sha256 config.toMeshtasticConfig session.reassembler
      session.metrics now receivedAt packet = some (message, r, m)) :
    Traced prost sha256 config
      (h ++ .received packet :: (gatheredFrom sha256 config session.reassembler now packet ++
        message.toList.map .made))
      { s with control := .serving ⟨r, m', message.elim .receiving .sending⟩ } := by
  have ht := w.tracks session hcontrol
  have hreassembly := handlePacket_reassembly prost sha256 config.toMeshtasticConfig
    session.reassembler session.metrics now receivedAt packet
  rw [hhandled, Option.map_some] at hreassembly
  -- after the packet
  have hheld₁ : Held config (h ++ [.received packet]) := w.held.received packet
  have hjust₁ : EventMachine.Justified (Accounts prost sha256 config)
      (h ++ [.received packet]) :=
    EventMachine.justified_append_singleton.mpr ⟨w.accounts, trivial⟩
  have htraced₁ : traced (h ++ [.received packet]) = traced h := by
    rw [traced_append]
    exact List.append_nil _
  have hmem : ∀ key, packet ∈ fresh key (h ++ [.received packet]) := fun key => by
    rw [fresh_append_singleton]
    exact List.mem_append_right _ List.mem_cons_self
  have hlast : (h ++ [AdapterObservation.received packet]).getLast? = some (.received packet) :=
    List.getLast?_concat
  -- after the fragment
  have hgathered : Held config (h ++ [.received packet] ++
        gatheredFrom sha256 config session.reassembler now packet) ∧
      EventMachine.Justified (Accounts prost sha256 config) (h ++ [.received packet] ++
        gatheredFrom sha256 config session.reassembler now packet) ∧
      Tracks (.ofConfig config.toMeshtasticConfig) (fun key => live key (traced
        (h ++ [.received packet] ++
          gatheredFrom sha256 config session.reassembler now packet))) r := by
    unfold gatheredFrom
    cases hfragment : packetFragment config.toMeshtasticConfig packet with
    | none =>
      rw [hfragment] at hreassembly
      obtain ⟨rfl, -⟩ := Prod.mk.inj (Option.some.inj hreassembly)
      dsimp only
      rw [List.append_nil, htraced₁]
      exact ⟨hheld₁, hjust₁, ht⟩
    | some p =>
      obtain ⟨sender, f⟩ := p
      have hauthentic := packetFragment_eq_some_iff.mp hfragment
      rw [hfragment] at hreassembly
      dsimp only at hreassembly ⊢
      cases haccept : accept sha256 session.reassembler now sender f with
      | none =>
        rw [haccept] at hreassembly
        exact absurd hreassembly (by simp)
      | some answer =>
        obtain ⟨outcome, r₁⟩ := answer
        rw [haccept] at hreassembly
        obtain ⟨rfl, -⟩ := Prod.mk.inj (Option.some.inj hreassembly)
        have ht₁ : Tracks (.ofConfig config.toMeshtasticConfig)
            (fun key => live key (traced (h ++ [.received packet]))) session.reassembler := by
          rw [htraced₁]
          exact ht
        refine ⟨hheld₁.accepted (hmem _) hauthentic outcome,
          EventMachine.justified_append_singleton.mpr
            ⟨hjust₁, accounts_accepted hheld₁ ht₁ (hmem _) hauthentic haccept⟩, ?_⟩
        obtain ⟨data, -, -, hparse⟩ := hauthentic
        have hstep : (reassembler sha256).step session.reassembler
            (.packet now sender data.payload) = some (r, [.accepted sender f outcome]) := by
          show reassemblerStep sha256 session.reassembler (.packet now sender data.payload) = _
          rw [reassemblerStep, hparse]
          dsimp only
          rw [haccept]
          rfl
        rw [traced_append]
        exact tracks_of_step ht₁ hstep
  rw [List.append_cons, ← List.append_assoc]
  obtain ⟨hheld, hjust, htracks⟩ := hgathered
  cases message with
  | none =>
    rw [Option.toList_none, List.map_nil, List.append_nil]
    refine ⟨hjust, hheld, fun session' heq => ?_, fun session' message heq hphase => ?_⟩
    · obtain rfl := Control.serving.inj heq
      exact htracks
    · obtain rfl := Control.serving.inj heq
      exact absurd hphase (by simp)
  | some message =>
    rw [Option.toList_some, List.map_singleton]
    obtain ⟨sender, htransport, hdecode, horigin⟩ := exists_of_handlePacket hhandled
    refine ⟨EventMachine.justified_append_singleton.mpr ⟨hjust, hdecode, sender, htransport, ?_⟩,
      hheld.quiet rfl fun _ _ => rfl, fun session' heq => ?_,
      fun session' message' heq hphase => ?_⟩
    · rcases horigin with hsingle | ⟨f, r₁, hauthentic, haccept⟩
      · refine .inl ⟨packet, ?_, hsingle⟩
        have hnone : packetFragment config.toMeshtasticConfig packet = none := by
          obtain ⟨data, rfl, hport, hparse⟩ := hsingle
          simp [packetFragment, hport, hparse]
        rw [gatheredFrom, hnone, List.append_nil]
        exact hlast
      · refine .inr ⟨f, ?_⟩
        rw [gatheredFrom, packetFragment_eq_some_iff.mpr hauthentic]
        dsimp only
        rw [haccept]
        exact List.getLast?_concat
    · obtain rfl := Control.serving.inj heq
      rw [traced_append, show traced [.made message] = [] from rfl, List.append_nil]
      exact htracks
    · obtain rfl := Control.serving.inj heq
      obtain rfl : message = message' := by simpa using hphase
      exact List.getLast?_concat

/-- **Every step is accounted for.**  A packet is the one that matters; sweeps, ends of sessions
and waits make no message, and hand on one that was made before. -/
theorem Traced.step (w : Traced prost sha256 config h s)
    (hmove : AdapterMove prost sha256 config s s' o) :
    Traced prost sha256 config (h ++ o) s' := by
  cases hmove with
  | requestShutdown => exact w.of_nil fun session heq => heq
  | turn hcontrol =>
    refine w.of_nil fun session heq => ?_
    dsimp only at heq
    split_ifs at heq
  | slept | overflow | stop => exact w.of_nil fun session heq => absurd heq (by simp)
  | failed | closed =>
    exact w.of_quiet (fun session heq => absurd heq (by simp)) trivial rfl fun _ _ => rfl
  | gone hcontrol hphase =>
    exact w.of_quiet (fun session heq => absurd heq (by simp)) (w.sending _ _ hcontrol hphase) rfl
      fun _ _ => rfl
  | connected hcontrol =>
    refine ⟨EventMachine.justified_append_singleton.mpr ⟨w.accounts, trivial⟩, .opened,
      fun session heq => ?_, fun session message heq hphase => ?_⟩
    · obtain rfl := Control.serving.inj heq
      have hnil : (fun key => live key (traced (h ++ [.opened]))) = fun _ => [] := by
        funext key
        rw [traced_append, show traced [.opened] = [.cleared] from rfl, live_append_singleton]
        rfl
      rw [hnil]
      exact tracks_new _
    · obtain rfl := Control.serving.inj heq
      exact absurd hphase (by simp [Session.start])
  | packet hcontrol hhandled => exact w.packet hcontrol hhandled
  | @sweep session now m hcontrol hphase =>
    refine ⟨EventMachine.justified_append_singleton.mpr ⟨w.accounts, trivial⟩, w.held.swept _,
      fun session' heq => ?_, fun session' message heq hsending => ?_⟩
    · obtain rfl := Control.serving.inj heq
      have hstep : (reassembler sha256).step session.reassembler (.sweep now) =
          some ((sweepExpired session.reassembler now).2,
            [.swept (expiredKeys session.reassembler now)]) := rfl
      rw [traced_append]
      exact tracks_of_step (w.tracks session hcontrol) hstep
    · obtain rfl := Control.serving.inj heq
      exact absurd hsending (by simp)
  | @sent session message hcontrol hphase =>
    refine ⟨EventMachine.justified_append_singleton.mpr
        ⟨w.accounts, w.sending _ _ hcontrol hphase⟩, w.held.quiet rfl fun _ _ => rfl,
      fun session' heq => ?_, fun session' message heq hsending => ?_⟩
    · obtain rfl := Control.serving.inj heq
      rw [traced_append, show traced [.delivered message] = [] from rfl, List.append_nil]
      exact w.tracks session hcontrol
    · obtain rfl := Control.serving.inj heq
      exact absurd hsending (by simp)

/-- **Every message of the adapter can be traced.**  Whatever packets, sweeps, failures of the
connection and shutdowns a run meets: a message that is made is the envelope in one authentic
packet, or in a payload that was put together from one body for each position, all of them from
authentic packets of one sender, of one session, and after the last message under the same id. -/
theorem adapter_traced (prost : Prost) (sha256 : Sha256) (config : Gateway.MeshtasticConfig)
    (es : List AdapterEvent) (s : Adapter) (h : List AdapterObservation)
    (hrun : (adapter prost sha256 config).exec (.start config) es = some (s, h)) :
    EventMachine.Justified (Accounts prost sha256 config) h := by
  have hall : Traced prost sha256 config h s := by
    refine EventMachine.exec_induction (P := fun _ h s => Traced prost sha256 config h s)
      ?_ ?_ hrun
    · refine ⟨EventMachine.justified_nil _, fun key f hf => absurd hf List.not_mem_nil,
        fun session heq => absurd heq (by simp [Adapter.start]),
        fun session message heq => absurd heq (by simp [Adapter.start])⟩
    · exact fun es h s e s' o _ w hstep => w.step (adapterMove_of_adapterStep hstep)
  exact hall.accounts

/-- An authenticated packet of sender 7 with a whole envelope. -/
def singlePacket : FromRadio :=
  ⟨some (.packet ⟨7, true, some (.decoded ⟨256, [0x01, 10, 1, 7], 0⟩)⟩)⟩

def enabledConfig : Gateway.MeshtasticConfig := { Gateway.MeshtasticConfig.default with
  enabled := true }

/-- The device is there at the second attempt.  Between the two fragments of an envelope comes
another in one packet; then the connection is lost, and the adapter is shut down. -/
def twoEnvelopes : List AdapterEvent :=
  [.turn, .connect false, .slept, .turn, .connect true,
    .session (.packet 0 ⟨0⟩ (fragmentPacket 0x11 [0, 0])),
    .session (.packet 1 ⟨1⟩ singlePacket), .session (.sent true), .session (.sweep 2),
    .session (.packet 3 ⟨3⟩ (fragmentPacket 0x10 ([10, 210, 1] ++ List.replicate 208 0))),
    .session (.sent true), .session .closed, .requestShutdown, .stop]

theorem adapter_traced_twoEnvelopes :
    ∃ s h, (adapter Wire.wire (fun _ => zerosDigest) enabledConfig).exec (.start enabledConfig)
        twoEnvelopes = some (s, h) ∧
      (h.filterMap fun | .delivered message => some message.rawEnvelope | _ => none) =
        [[10, 1, 7], [10, 210, 1] ++ List.replicate 210 0] ∧
      EventMachine.Justified (Accounts Wire.wire (fun _ => zerosDigest) enabledConfig) h := by
  have hshown : (((adapter Wire.wire (fun _ => zerosDigest) enabledConfig).exec
      (.start enabledConfig) twoEnvelopes).map fun p => p.2.filterMap fun
        | .delivered message => some message.rawEnvelope
        | _ => none) = some [[10, 1, 7], [10, 210, 1] ++ List.replicate 210 0] := by
    decide +kernel
  obtain ⟨⟨s, h⟩, hrun, hh⟩ := Option.map_eq_some_iff.mp hshown
  exact ⟨s, h, hrun, hh, adapter_traced _ _ _ twoEnvelopes s h hrun⟩

/-! ## Every run is patient -/

/-- How often the adapter has waited since it was connected last. -/
def failures (h : List AdapterObservation) : ℕ :=
  h.foldl (fun n a => match a with
    | .opened => 0
    | .waits _ => n + 1
    | _ => n) 0

theorem failures_append_singleton (h : List AdapterObservation) (a : AdapterObservation) :
    failures (h ++ [a]) = match a with
      | .opened => 0
      | .waits _ => failures h + 1
      | _ => failures h := by
  rw [failures, List.foldl_append]
  rfl

theorem failures_append_of_forall {o : List AdapterObservation}
    (ho : ∀ a ∈ o, a ≠ .opened ∧ ∀ d, a ≠ .waits d) : failures (h ++ o) = failures h := by
  induction o using List.reverseRecOn with
  | nil => rw [List.append_nil]
  | append_singleton o a ih =>
    obtain ⟨hopened, hwaits⟩ := ho a (List.mem_append_right _ List.mem_cons_self)
    rw [← List.append_assoc, failures_append_singleton,
      ← ih fun b hb => ho b (List.mem_append_left _ hb)]
    cases a with
    | opened => exact absurd rfl hopened
    | waits d => exact absurd rfl (hwaits d)
    | received | gathered | made | delivered | refused => rfl

variable (config) in
/-- The wait after so many others in a row. -/
def delay (n : ℕ) : Duration := capped (doubling (minBackoff config)) (maxBackoff config) n

theorem minBackoff_le_maxBackoff : minBackoff config ≤ maxBackoff config :=
  Nat.mul_le_mul_right 1000 (le_max_right _ _)

@[simp] theorem delay_zero : delay config 0 = minBackoff config := by
  rw [delay, capped, doubling_zero]
  exact min_eq_left minBackoff_le_maxBackoff

theorem delay_succ (n : ℕ) : min (delay config n * 2) (maxBackoff config) = delay config (n + 1) :=
  capped_doubling_succ _ n

variable (config) in
/-- Waits double from the first on, up to the limit, and start again with a connection. -/
def Regular (before : List AdapterObservation) : AdapterObservation → Prop
  | .waits d => d = delay config (failures before)
  | _ => True

variable (config) in
/-- The wait that comes next is the right one. -/
structure Backs (h : List AdapterObservation) (s : Adapter) : Prop where
  regular : EventMachine.Justified (Regular config) h
  ready : s.control = .top ∨ s.control = .connecting → s.backoff = delay config (failures h)
  waiting : s.control = .waiting → ∃ n, failures h = n + 1 ∧ s.backoff = delay config n
  serving : ∀ session, s.control = .serving session → failures h = 0
  panicked : s.control = .panicked → Anchor.durationMax < maxBackoff config * 2
  stopped : s.control = .stopped → s.shutdown = true ∨ ∃ message, .refused message ∈ h

theorem regular_of_forall {o : List AdapterObservation}
    (hh : EventMachine.Justified (Regular config) h) (ho : ∀ a ∈ o, ∀ d, a ≠ .waits d) :
    EventMachine.Justified (Regular config) (h ++ o) := by
  refine EventMachine.justified_append.mpr ⟨hh, fun o₁ a o₂ heq => ?_⟩
  have ha := ho a (heq ▸ List.mem_append_right _ List.mem_cons_self)
  cases a with
  | waits d => exact absurd rfl (ha d)
  | opened | received | gathered | made | delivered | refused => trivial

/-- What an open session shows is no connection and no wait. -/
theorem Backs.of_serving (w : Backs config h s) {session session' : Session}
    (hcontrol : s.control = .serving session)
    (ho : ∀ a ∈ o, a ≠ .opened ∧ ∀ d, a ≠ .waits d) :
    Backs config (h ++ o) { s with control := .serving session' } where
  regular := regular_of_forall w.regular fun a ha => (ho a ha).2
  ready heq := absurd heq (by simp)
  waiting heq := absurd heq (by simp)
  serving _ _ := by
    rw [failures_append_of_forall ho]
    exact w.serving session hcontrol
  panicked heq := absurd heq (by simp)
  stopped heq := absurd heq (by simp)

theorem gatheredFrom_quiet {r : Reassembler} {now : Instant} {packet : FromRadio}
    {a : AdapterObservation} (ha : a ∈ gatheredFrom sha256 config r now packet) :
    ∃ b, a = .gathered b := by
  unfold gatheredFrom at ha
  split at ha
  · exact absurd ha List.not_mem_nil
  · split at ha
    · exact absurd ha List.not_mem_nil
    · exact ⟨_, List.mem_singleton.mp ha⟩

theorem Backs.step (w : Backs config h s) (hmove : AdapterMove prost sha256 config s s' o) :
    Backs config (h ++ o) s' := by
  cases hmove with
  | requestShutdown =>
    rw [List.append_nil]
    exact ⟨w.regular, w.ready, w.waiting, w.serving, w.panicked, fun _ => .inl rfl⟩
  | turn hcontrol =>
    rw [List.append_nil]
    refine ⟨w.regular, fun _ => w.ready (.inl hcontrol), fun heq => ?_, fun session heq => ?_,
      fun heq => ?_, fun heq => ?_⟩
    all_goals dsimp only at heq
    all_goals split_ifs at heq with hshutdown
    exact .inl hshutdown
  | connected hcontrol =>
    refine ⟨regular_of_forall w.regular (by simp), fun heq => absurd heq (by simp),
      fun heq => absurd heq (by simp), fun _ _ => ?_, fun heq => absurd heq (by simp),
      fun heq => absurd heq (by simp)⟩
    rw [failures_append_singleton]
  | failed hcontrol =>
    have hbackoff := w.ready (.inr hcontrol)
    refine ⟨EventMachine.justified_append_singleton.mpr ⟨w.regular, hbackoff⟩,
      fun heq => absurd heq (by simp), fun _ => ⟨failures h, ?_, hbackoff⟩,
      fun session heq => absurd heq (by simp), fun heq => absurd heq (by simp),
      fun heq => absurd heq (by simp)⟩
    rw [failures_append_singleton]
  | @packet session now receivedAt packet message r m m' hcontrol hhandled =>
    refine w.of_serving hcontrol fun a ha => ?_
    rcases List.mem_cons.mp ha with rfl | ha
    · simp
    · rcases List.mem_append.mp ha with ha | ha
      · obtain ⟨b, rfl⟩ := gatheredFrom_quiet ha
        simp
      · obtain ⟨b, -, rfl⟩ := List.mem_map.mp ha
        simp
  | sweep hcontrol hphase => exact w.of_serving hcontrol (by simp)
  | sent hcontrol hphase => exact w.of_serving hcontrol (by simp)
  | @gone session message hcontrol hphase =>
    refine ⟨regular_of_forall w.regular (by simp), fun heq => absurd heq (by simp),
      fun heq => absurd heq (by simp), fun session heq => absurd heq (by simp),
      fun heq => absurd heq (by simp), fun _ => .inr ⟨message, ?_⟩⟩
    exact List.mem_append_right _ List.mem_cons_self
  | @closed session hcontrol =>
    -- the connection was the last thing that counts
    have hzero := w.serving session hcontrol
    refine ⟨EventMachine.justified_append_singleton.mpr ⟨w.regular, ?_⟩,
      fun heq => absurd heq (by simp), fun _ => ⟨0, ?_, delay_zero.symm⟩,
      fun session heq => absurd heq (by simp), fun heq => absurd heq (by simp),
      fun heq => absurd heq (by simp)⟩
    · rw [Regular, hzero, delay_zero]
    · rw [failures_append_singleton, hzero]
  | slept hcontrol hfits =>
    obtain ⟨n, hn, hbackoff⟩ := w.waiting hcontrol
    rw [List.append_nil]
    refine ⟨w.regular, fun _ => ?_, fun heq => absurd heq (by simp),
      fun session heq => absurd heq (by simp), fun heq => absurd heq (by simp),
      fun heq => absurd heq (by simp)⟩
    show min (s.backoff * 2) (maxBackoff config) = _
    rw [hbackoff, delay_succ, hn]
  | overflow hcontrol hover =>
    obtain ⟨n, -, hbackoff⟩ := w.waiting hcontrol
    rw [List.append_nil]
    refine ⟨w.regular, fun heq => absurd heq (by simp), fun heq => absurd heq (by simp),
      fun session heq => absurd heq (by simp), fun _ => hover.trans_le ?_,
      fun heq => absurd heq (by simp)⟩
    rw [hbackoff]
    exact Nat.mul_le_mul_right 2 capped_le_cap
  | stop hshutdown =>
    rw [List.append_nil]
    exact ⟨w.regular, fun heq => absurd heq (by simp), fun heq => absurd heq (by simp),
      fun session heq => absurd heq (by simp), fun heq => absurd heq (by simp),
      fun _ => .inl hshutdown⟩

/-! ## After the shutdown -/

def AdapterObservation.isOpened : AdapterObservation → Bool
  | .opened => true
  | _ => false

def AdapterObservation.isWait : AdapterObservation → Bool
  | .waits _ => true
  | _ => false

/-- Connections and waits that can have come after the request, by where the adapter is. -/
def Control.late : Control → ℕ × ℕ
  | .connecting => (0, 0)
  | .serving _ => (1, 0)
  | .top | .waiting | .stopped | .panicked => (1, 1)

/-- What has come since the shutdown was requested. -/
structure Leaves (o : List AdapterObservation) (s : Adapter) : Prop where
  shutdown : s.shutdown = true
  opened : o.countP AdapterObservation.isOpened ≤ s.control.late.1
  waits : o.countP AdapterObservation.isWait ≤ s.control.late.2

theorem Leaves.step (w : Leaves h s) (hmove : AdapterMove prost sha256 config s s' o) :
    Leaves (h ++ o) s' := by
  have hopened := w.opened
  have hwaits := w.waits
  have hquiet : ∀ {o' : List AdapterObservation} {t : Adapter}, t.shutdown = true →
      (∀ a ∈ o', a.isOpened = false ∧ a.isWait = false) →
      s.control.late.1 ≤ t.control.late.1 → s.control.late.2 ≤ t.control.late.2 →
      Leaves (h ++ o') t := by
    intro o' t hshutdown ho hone htwo
    have hnone : o'.countP AdapterObservation.isOpened = 0 ∧
        o'.countP AdapterObservation.isWait = 0 :=
      ⟨List.countP_eq_zero.mpr fun a ha => by simp [(ho a ha).1],
        List.countP_eq_zero.mpr fun a ha => by simp [(ho a ha).2]⟩
    refine ⟨hshutdown, ?_, ?_⟩
    · rw [List.countP_append, hnone.1]
      exact hopened.trans hone
    · rw [List.countP_append, hnone.2]
      exact hwaits.trans htwo
  have hfirst : s.control.late.1 ≤ 1 := by cases s.control <;> simp [Control.late]
  have hsecond : s.control.late.2 ≤ 1 := by cases s.control <;> simp [Control.late]
  cases hmove with
  | requestShutdown => exact hquiet rfl (by simp) le_rfl le_rfl
  | turn hcontrol =>
    refine hquiet w.shutdown (by simp) ?_ ?_
    · rw [if_pos w.shutdown]
      exact hfirst
    · rw [if_pos w.shutdown]
      exact hsecond
  | connected hcontrol =>
    rw [hcontrol] at hopened hwaits
    refine ⟨w.shutdown, ?_, ?_⟩
    · rw [List.countP_append]
      exact Nat.add_le_add_right hopened 1
    · rw [List.countP_append]
      exact hwaits
  | failed hcontrol =>
    rw [hcontrol] at hopened hwaits
    refine ⟨w.shutdown, ?_, ?_⟩
    · rw [List.countP_append]
      exact hopened.trans (Nat.zero_le 1)
    · rw [List.countP_append]
      exact Nat.add_le_add_right hwaits 1
  | @packet session now receivedAt packet message r m m' hcontrol hhandled =>
    refine hquiet w.shutdown (fun a ha => ?_) (by rw [hcontrol]; exact le_rfl)
      (by rw [hcontrol]; exact le_rfl)
    rcases List.mem_cons.mp ha with rfl | ha
    · exact ⟨rfl, rfl⟩
    · rcases List.mem_append.mp ha with ha | ha
      · obtain ⟨b, rfl⟩ := gatheredFrom_quiet ha
        exact ⟨rfl, rfl⟩
      · obtain ⟨b, -, rfl⟩ := List.mem_map.mp ha
        exact ⟨rfl, rfl⟩
  | sweep hcontrol hphase | sent hcontrol hphase =>
    exact hquiet w.shutdown (by simp [AdapterObservation.isOpened, AdapterObservation.isWait])
      (by rw [hcontrol]; exact le_rfl) (by rw [hcontrol]; exact le_rfl)
  | gone hcontrol hphase =>
    exact hquiet w.shutdown (by simp [AdapterObservation.isOpened, AdapterObservation.isWait])
      hfirst hsecond
  | closed hcontrol =>
    rw [hcontrol] at hopened hwaits
    refine ⟨w.shutdown, ?_, ?_⟩
    · rw [List.countP_append]
      exact hopened
    · rw [List.countP_append]
      exact Nat.add_le_add_right hwaits 1
  | slept | overflow | stop => exact hquiet w.shutdown (by simp) hfirst hsecond

/-! ## The law of the waits -/

variable (prost sha256 config) in
/-- How the adapter waits, and how it ends. -/
structure Patient (h : List AdapterObservation) (s : Adapter) : Prop where
  /-- A wait is the first one, doubled with each wait before it since the last connection, up
  to the limit. -/
  waits : EventMachine.Justified (Regular config) h
  /-- So it is a second at least, and no more than configured. -/
  bounds : ∀ d, .waits d ∈ h → Duration.ofSecs 1 ≤ d ∧ d ≤ maxBackoff config
  /-- It fails to double only if the limit cannot be doubled. -/
  panicked : s.control = .panicked → Anchor.durationMax < maxBackoff config * 2
  /-- It stops only when asked to, or when nobody takes the messages. -/
  stopped : s.control = .stopped → s.shutdown = true ∨ ∃ message, .refused message ∈ h
  /-- When asked to stop it makes one more connection and waits once more, at most. -/
  leaves : s.shutdown = true → ∀ es s' o, (adapter prost sha256 config).exec s es = some (s', o) →
    o.countP AdapterObservation.isOpened ≤ 1 ∧ o.countP AdapterObservation.isWait ≤ 1

/-- **The adapter is patient.**  In every run, with attempts and sessions failing at any time:
each wait is a second, doubled with every wait since the last connection, up to the limit; the
adapter stops only when it is told to or nobody takes its messages; and once told it makes one
more connection and waits once more, at most. -/
theorem adapter_patient (prost : Prost) (sha256 : Sha256) (config : Gateway.MeshtasticConfig)
    (es : List AdapterEvent) (s : Adapter) (h : List AdapterObservation)
    (hrun : (adapter prost sha256 config).exec (.start config) es = some (s, h)) :
    Patient prost sha256 config h s := by
  have hall : Backs config h s := by
    refine EventMachine.exec_induction (P := fun _ h s => Backs config h s) ?_ ?_ hrun
    · exact ⟨EventMachine.justified_nil _, fun _ => delay_zero.symm,
        fun heq => absurd heq (by simp [Adapter.start]),
        fun session heq => absurd heq (by simp [Adapter.start]),
        fun heq => absurd heq (by simp [Adapter.start]),
        fun heq => absurd heq (by simp [Adapter.start])⟩
    · exact fun es h s e s' o _ w hstep => w.step (adapterMove_of_adapterStep hstep)
  refine ⟨hall.regular, fun d hd => ?_, hall.panicked, hall.stopped, ?_⟩
  · obtain ⟨h₁, h₂, -, hregular⟩ := hall.regular.exists_of_mem hd
    obtain rfl : d = delay config (failures h₁) := hregular
    have hone : Duration.ofSecs 1 ≤ minBackoff config :=
      Nat.mul_le_mul_right 1000 (le_max_right _ _)
    exact ⟨hone.trans (le_capped_doubling minBackoff_le_maxBackoff _), capped_le_cap⟩
  · intro hshutdown es' s' o hrest
    have hleaves : Leaves o s' := by
      refine EventMachine.exec_induction (P := fun _ o s' => Leaves o s') ?_ ?_ hrest
      · exact ⟨hshutdown, Nat.zero_le _, Nat.zero_le _⟩
      · exact fun es h s e s' o _ w hstep => w.step (adapterMove_of_adapterStep hstep)
    have hfirst : s'.control.late.1 ≤ 1 := by cases s'.control <;> simp [Control.late]
    have hsecond : s'.control.late.2 ≤ 1 := by cases s'.control <;> simp [Control.late]
    exact ⟨hleaves.opened.trans hfirst, hleaves.waits.trans hsecond⟩

/-- Two attempts fail, the third does not, and the connection is lost. -/
def unsteadyDevice : List AdapterEvent :=
  [.turn, .connect false, .slept, .turn, .connect false, .slept, .turn, .connect true,
    .session .closed, .slept, .turn, .connect false, .requestShutdown, .stop]

theorem adapter_patient_unsteadyDevice :
    ∃ s h, (adapter Wire.wire (fun _ => zerosDigest) enabledConfig).exec (.start enabledConfig)
        unsteadyDevice = some (s, h) ∧
      h = [.waits 1000, .waits 2000, .opened, .waits 1000, .waits 2000] ∧
      Patient Wire.wire (fun _ => zerosDigest) enabledConfig h s := by
  have hshown : ((adapter Wire.wire (fun _ => zerosDigest) enabledConfig).exec
      (.start enabledConfig) unsteadyDevice).map Prod.snd =
        some [.waits 1000, .waits 2000, .opened, .waits 1000, .waits 2000] := by
    decide +kernel
  obtain ⟨⟨s, h⟩, hrun, hh⟩ := Option.map_eq_some_iff.mp hshown
  exact ⟨s, h, hrun, hh, adapter_patient _ _ _ unsteadyDevice s h hrun⟩

end

end Meshtastic
end Robins
