import Robins.Anchor.Delivery
import Robins.BatchStore.Format
import Robins.Batcher.Conservation
import Robins.Lib.BoundedQueue
import Robins.Meshtastic.Session
import Robins.Pipeline.Acceptance
import Mathlib.Data.List.DropRight

/-!
# The gateway as a whole

`EdgeApp::start` wires the parts together: the transports fill the ingress channel, the pipeline
empties it and hands what it accepts to its sinks, the first of which writes to the store; the
batcher and the anchor work on that store, and the anchor calls the chain.  All of them are tasks
of one process, so their steps interleave in any order, and the process may end at any moment and
be started again, perhaps under another configuration.  Only the store survives.

## Parts

Each part is the machine it is elsewhere.  What is added here is what they share: the channel,
whose messages were decoded from the very bytes they carry; the durable sink, a transaction of the
store whose answer the pipeline waits for; and the store, whose transactions are seen by the part
that makes them and by the others.  So a part has events that the world may no longer contribute,
because another part does: the pipeline takes its messages from the channel, the durable sink
answers by itself, and a batch comes to the anchor from the batcher.

## Histories

A history has what each part has shown, one function to read each out of it, and the sessions of
the processes one after the other.  What holds of a part's own runs is then said of its part of the
history, and what holds of one process, of the session of the process that runs.
-/

namespace Robins
namespace Edge

open Protocol BatchStore Pipeline

/-! ## Ingress -/

/-- The answers of the endpoint. -/
inductive StatusCode where
  | accepted
  | badRequest
  | tooManyRequests
  | serviceUnavailable
  deriving DecidableEq, Repr

/-- The body of a POST to the endpoint becomes a message for the pipeline, or is refused.
The channel is `closed` once the pipeline has stopped receiving. -/
def ingest (prost : Prost) (closed : Bool) (channel : BoundedQueue IngressMessage) (body : Bytes)
    (receivedAt : Timestamp) :
    (StatusCode × String) × Option (IngressMessage × BoundedQueue IngressMessage) :=
  match decodeEnvelope prost body with
  | .error error => ((.badRequest, "invalid envelope: " ++ error.toText), none)
  | .ok envelope =>
    let message : IngressMessage := ⟨envelope, body, ⟨.http, none⟩, receivedAt⟩
    if closed then ((.serviceUnavailable, "ingress pipeline unavailable"), none)
    else
      match channel.trySend message with
      | none => ((.tooManyRequests, "ingress buffer full"), none)
      | some channel => ((.accepted, "accepted"), some (message, channel))

/-- **What `ingest` can answer.**  It accepts what it has put into the channel, and then
the body is the very encoding it decoded. -/
theorem ingest_cases (prost : Prost) (closed : Bool) (channel : BoundedQueue IngressMessage)
    (body : Bytes) (receivedAt : Timestamp) :
    (∃ status text, ingest prost closed channel body receivedAt = ((status, text), none) ∧
      status ≠ .accepted) ∨
    ∃ envelope channel', ingest prost closed channel body receivedAt =
        ((.accepted, "accepted"), some (⟨envelope, body, ⟨.http, none⟩, receivedAt⟩, channel')) ∧
      decodeEnvelope prost body = .ok envelope ∧ closed = false ∧
      channel.trySend ⟨envelope, body, ⟨.http, none⟩, receivedAt⟩ = some channel' := by
  unfold ingest
  cases hdecode : decodeEnvelope prost body with
  | error error => exact .inl ⟨_, _, rfl, by decide⟩
  | ok envelope =>
    dsimp only
    cases closed with
    | true => exact .inl ⟨_, _, rfl, by decide⟩
    | false =>
      cases hsend : channel.trySend ⟨envelope, body, ⟨.http, none⟩, receivedAt⟩ with
      | none => exact .inl ⟨_, _, rfl, by decide⟩
      | some channel' => exact .inr ⟨envelope, channel', rfl, rfl, rfl, hsend⟩

/-! ## The durable sink -/

/-- `deliver` of the batch sink: the exact bytes and the time they were received. -/
def deliver (store : Tables) (message : AcceptedMessage) :
    Except SinkError (StoredMessage × Tables) :=
  match pushMessage store message.receivedAt message.rawEnvelope with
  | .error error => .error (.delivery "batch" error.toText)
  | .ok (sequence, store) => .ok (⟨sequence, message.receivedAt, message.rawEnvelope⟩, store)

/-! ## Configuration -/

/-- What batching and anchoring need. -/
structure Blockchain where
  batcher : Batcher.BatcherConfig
  anchor : Anchor.Anchor

/-- What `start` reads in the configuration. -/
structure EdgeConfig where
  maxBodyBytes : ℕ
  ingressBuffer : ℕ
  authLimits : AuthLimits
  dedupCapacity : ℕ
  dedupTtl : Duration
  /-- `[pubsub] enabled` -/
  pubsub : Bool
  /-- Present with `[blockchain] enabled`. -/
  blockchain : Option Blockchain

/-- The batch sink is inserted before the sink of the publisher. -/
def EdgeConfig.sinks (config : EdgeConfig) : List Sink :=
  let sinks := if config.pubsub then [⟨"gossip", false⟩] else []
  if config.blockchain.isSome then ⟨"batch", true⟩ :: sinks else sinks

def EdgeConfig.pipeline (config : EdgeConfig) : Pipeline :=
  { Pipeline.new (.new config.dedupCapacity config.dedupTtl) config.sinks with
    authLimits := config.authLimits }

/-! ## State -/

/-- The task of the anchor; the store it works on is that of the gateway. -/
structure AnchorTask where
  shutdown : Anchor.ShutdownSignal
  issued : List BatchId
  control : Anchor.Control

structure EdgeApp where
  config : EdgeConfig
  channel : BoundedQueue IngressMessage
  pipeline : Pipeline.State
  /-- The durable sink has its answer, the pipeline not yet. -/
  answer : Option (Except SinkError Unit)
  /-- The store and the batcher. -/
  gateway : Batcher.Gateway
  anchor : AnchorTask

/-- The anchor with the store it works on. -/
def EdgeApp.anchorState (s : EdgeApp) : Anchor.State :=
  ⟨s.gateway.tables, s.anchor.shutdown, s.anchor.issued, s.anchor.control⟩

/-- The parts as they are spawned, on an open store. -/
def EdgeApp.spawn (config : EdgeConfig) (store : Tables) : EdgeApp where
  config := config
  -- at least one slot
  channel := .empty (max config.ingressBuffer 1)
  pipeline := .start config.pipeline
  answer := none
  gateway := ⟨store, none⟩
  anchor := ⟨.running, [], .check .load 0⟩

/-- `start`: the payload format is reconciled before anything is spawned. -/
def EdgeApp.start (config : EdgeConfig) (faults : StoreCall → Option StoreError)
    (store : Tables) : Option EdgeApp :=
  match config.blockchain with
  | none => some (.spawn config store)
  | some blockchain =>
    if blockchain.batcher.Valid then
      match reconcileFormat faults store blockchain.batcher.formatDescriptor with
      | (.error _, _) => none
      | (.ok _, store) => some (.spawn config store)
    else none

/-- The receiver of the channel is gone. -/
def EdgeApp.closed (s : EdgeApp) : Bool :=
  match s.pipeline.control with
  | .stopped => true
  | _ => false

/-- The message that the durable sink is given. -/
def EdgeApp.delivering (s : EdgeApp) : Option Verified :=
  match s.pipeline.control with
  | .delivering delivery =>
    if s.config.blockchain.isSome ∧ delivery.index = 0 then some delivery.message else none
  | _ => none

/-! ## Events and observations -/

inductive Event where
  /-- A POST to the endpoint. -/
  | post (body : Bytes) (receivedAt : Timestamp)
  /-- The radio waits for a place in the channel and takes it. -/
  | reserve
  /-- It gives the place up. -/
  | release
  /-- It hands over a complete payload. -/
  | radio (rawEnvelope : Bytes) (meshSender : UInt32) (receivedAt : Timestamp)
  /-- The pipeline takes the first message of the channel. -/
  | recv
  | pipeline (e : Pipeline.Event)
  /-- The transaction of the durable sink; the store may fail. -/
  | push (fault : Option StoreError)
  | answer
  /-- A step of the batcher. -/
  | plan (now : Timestamp) (force : Bool)
  | commit (createdAt : Timestamp)
  | anchor (e : Anchor.Event)
  /-- The process ends, and one starts on what it left. -/
  | restart (config : EdgeConfig) (faults : StoreCall → Option StoreError)

/-- What is seen: by those who send, by the pipeline, at the store, by the anchor. -/
inductive Observation where
  | answered (body : Bytes) (status : StatusCode) (text : String)
  /-- The router refuses a body above its limit. -/
  | refused (body : Bytes)
  | queued (message : IngressMessage)
  | pipeline (a : Pipeline.Observation)
  | store (a : Batcher.Observation)
  | anchor (a : Anchor.Observation)
  | started (config : EdgeConfig)

/-- The events of the pipeline that are its own: it takes messages from the channel, and
the durable sink answers by itself. -/
def EdgeApp.isOwn (s : EdgeApp) : Pipeline.Event → Bool
  | .ingress _ => false
  | .ingressClosed => s.channel.items.isEmpty
  | .sink _ => s.delivering.isNone
  | _ => true

/-- The batch that a step of the anchor removes from the store. -/
def EdgeApp.confirms (s : EdgeApp) : Anchor.Event → Option BatchId
  | .transaction id => some id
  | .confirmed =>
    match s.anchor.control with
    | .running (.confirm batch _) _ => some batch.id
    | _ => none
  | _ => none

/-- The events of the anchor that are its own: batches come from the batcher, and a
restart is one of the whole process. -/
def isAnchors : Anchor.Event → Bool
  | .commit _ _ _ | .restart => false
  | _ => true

/-- What a confirmation shows at the store. -/
def confirmation (store : Tables) : Option BatchId → List Batcher.Observation
  | none => []
  | some id => if (store.readyBatches.get? id).isSome then [.confirmed id] else []

/-! ## Steps -/

section

variable (codecs : Batcher.Codecs) (verify : Ed25519Verify) (sha256 : Sha256)

def EdgeApp.runPipeline (s : EdgeApp) (e : Pipeline.Event) : Option (EdgeApp × List Observation) :=
  (pipelineStep verify sha256 s.pipeline e).map fun next =>
    ({ s with pipeline := next.1 }, next.2.map .pipeline)

def EdgeApp.runBatcher (s : EdgeApp) (e : Batcher.Event) : Option (EdgeApp × List Observation) :=
  (Batcher.gatewayStep codecs s.gateway e).map fun next =>
    ({ s with gateway := next.1 }, next.2.map .store)

/-- A step of the anchor, without what it shows at the store. -/
def EdgeApp.runAnchor (s : EdgeApp) (anchor : Anchor.Anchor) (e : Anchor.Event) :
    Option (EdgeApp × List Observation) :=
  (Anchor.anchorStep anchor s.anchorState e).map fun next =>
    ({ s with
      gateway := { s.gateway with tables := next.1.tables }
      anchor := ⟨next.1.shutdown, next.1.issued, next.1.control⟩ }, next.2.map .anchor)

/-- The transaction of the durable sink. -/
def EdgeApp.push (s : EdgeApp) (message : AcceptedMessage) : EdgeApp × List Observation :=
  match deliver s.gateway.tables message with
  | .error error => ({ s with answer := some (.error error) }, [])
  | .ok (stored, tables) =>
    ({ s with
      answer := some (.ok ())
      gateway := { s.gateway with tables } }, [.store (.pushed stored)])

/-- One step.  A message is a buffer in memory. -/
def edgeStep (s : EdgeApp) : Event → Option (EdgeApp × List Observation)
  | .post body receivedAt =>
    if s.config.maxBodyBytes < body.length then some (s, [.refused body])
    else if body.length ≤ isizeMax then
      match ingest codecs.prost s.closed s.channel body receivedAt with
      | ((status, text), none) => some (s, [.answered body status text])
      | ((status, text), some (message, channel)) =>
        some ({ s with channel }, [.queued message, .answered body status text])
    else none
  | .reserve =>
    if s.closed then none else s.channel.reserve.map fun channel => ({ s with channel }, [])
  | .release => s.channel.release.map fun channel => ({ s with channel }, [])
  | .radio rawEnvelope meshSender receivedAt =>
    if rawEnvelope.length ≤ isizeMax ∧ s.closed = false then
      match decodeEnvelope codecs.prost rawEnvelope with
      | .error _ => none
      | .ok envelope =>
        let message : IngressMessage :=
          ⟨envelope, rawEnvelope, Meshtastic.meshtasticMetadata meshSender, receivedAt⟩
        (s.channel.send message).map fun channel => ({ s with channel }, [.queued message])
    else none
  | .recv =>
    s.channel.recv.bind fun next =>
      EdgeApp.runPipeline verify sha256 { s with channel := next.2 } (.ingress next.1)
  | .pipeline e => if s.isOwn e then s.runPipeline verify sha256 e else none
  | .push fault =>
    match s.delivering, s.answer, fault with
    | some _, none, some error =>
      some ({ s with answer := some (.error (.delivery "batch" error.toText)) }, [])
    | some message, none, none => some (s.push (message.accepted sha256))
    | _, _, _ => none
  | .answer =>
    s.answer.bind fun result =>
      EdgeApp.runPipeline verify sha256 { s with answer := none } (.sink result)
  | .plan now force =>
    s.config.blockchain.bind fun blockchain =>
      s.runBatcher codecs (.plan blockchain.batcher now force)
  | .commit createdAt => do
    let blockchain ← s.config.blockchain
    let work ← s.gateway.batcher
    let next ← s.runBatcher codecs (.commit createdAt)
    let seen ← s.runAnchor blockchain.anchor (.commit createdAt work.2.consumed work.2.prepared)
    some (next.1, next.2 ++ seen.2)
  | .anchor e =>
    if isAnchors e then do
      let blockchain ← s.config.blockchain
      let next ← s.runAnchor blockchain.anchor e
      some (next.1, (confirmation s.gateway.tables (s.confirms e)).map .store ++ next.2)
    else none
  -- a start that is refused changes nothing, and is no event
  | .restart config faults =>
    (EdgeApp.start config faults s.gateway.tables).map fun s =>
      (s, [.anchor .restarted, .started config])

/-- The gateway, as a machine. -/
def edge : EventMachine EdgeApp Event Observation := ⟨edgeStep codecs verify sha256⟩

end

/-! ## What a step can do

A step of a part is a step of that part's machine, and only that part and the store move.  `Move`
has one constructor for each part and one for each thing the parts do to one another, with what
the others see of it. -/

section

variable (codecs : Batcher.Codecs) (verify : Ed25519Verify) (sha256 : Sha256)

/-- The steps of the gateway, each with the conditions under which it is taken. -/
inductive Move (s : EdgeApp) : EdgeApp → List Observation → Prop
  /-- A body is refused: by the router, or as it is not accepted. -/
  | turnAway {a : Observation} (ha : (∃ body, a = .refused body) ∨
      ∃ body status text, a = .answered body status text ∧ status ≠ .accepted) :
    Move s s [a]
  | post {body : Bytes} {receivedAt : Timestamp} {envelope : SignedEnvelope}
    {channel : BoundedQueue IngressMessage} (hlen : body.length ≤ isizeMax)
    (hdecode : decodeEnvelope codecs.prost body = .ok envelope)
    (hsend : s.channel.trySend ⟨envelope, body, ⟨.http, none⟩, receivedAt⟩ = some channel) :
    Move s { s with channel }
      [.queued ⟨envelope, body, ⟨.http, none⟩, receivedAt⟩, .answered body .accepted "accepted"]
  /-- The radio takes a place in the channel or gives it up. -/
  | place {channel : BoundedQueue IngressMessage} (hitems : channel.items = s.channel.items)
    (hcapacity : channel.capacity = s.channel.capacity) : Move s { s with channel } []
  | radio {rawEnvelope : Bytes} {receivedAt : Timestamp} {meshSender : UInt32}
    {envelope : SignedEnvelope} {channel : BoundedQueue IngressMessage}
    (hlen : rawEnvelope.length ≤ isizeMax)
    (hdecode : decodeEnvelope codecs.prost rawEnvelope = .ok envelope)
    (hsend : s.channel.send ⟨envelope, rawEnvelope, Meshtastic.meshtasticMetadata meshSender,
      receivedAt⟩ = some channel) :
    Move s { s with channel } [.queued ⟨envelope, rawEnvelope,
      Meshtastic.meshtasticMetadata meshSender, receivedAt⟩]
  | recv {message : IngressMessage} {channel : BoundedQueue IngressMessage}
    {pipeline : Pipeline.State} {o : List Pipeline.Observation}
    (hrecv : s.channel.recv = some (message, channel))
    (hstep : pipelineStep verify sha256 s.pipeline (.ingress message) = some (pipeline, o)) :
    Move s { s with channel, pipeline } (o.map .pipeline)
  | pipeline {e : Pipeline.Event} {pipeline : Pipeline.State} {o : List Pipeline.Observation}
    (hown : s.isOwn e = true)
    (hstep : pipelineStep verify sha256 s.pipeline e = some (pipeline, o)) :
    Move s { s with pipeline } (o.map .pipeline)
  /-- The transaction of the durable sink fails. -/
  | pushFailed {error : SinkError} (hdelivering : s.delivering.isSome) :
    Move s { s with answer := some (.error error) } []
  | push {v : Verified} {stored : StoredMessage} {tables : Tables}
    (hdelivering : s.delivering = some v)
    (hdeliver : deliver s.gateway.tables (v.accepted sha256) = .ok (stored, tables)) :
    Move s { s with answer := some (.ok ()), gateway := { s.gateway with tables } }
      [.store (.pushed stored)]
  | answer {result : Except SinkError Unit} {pipeline : Pipeline.State}
    {o : List Pipeline.Observation} (hanswer : s.answer = some result)
    (hstep : pipelineStep verify sha256 s.pipeline (.sink result) = some (pipeline, o)) :
    Move s { s with answer := none, pipeline } (o.map .pipeline)
  | plan {blockchain : Blockchain} {now : Timestamp} {force : Bool} {gateway : Batcher.Gateway}
    {o : List Batcher.Observation} (hconfig : s.config.blockchain = some blockchain)
    (hstep : Batcher.gatewayStep codecs s.gateway (.plan blockchain.batcher now force) =
      some (gateway, o)) :
    Move s { s with gateway } (o.map .store)
  | commit {blockchain : Blockchain} {createdAt : Timestamp} {config : Batcher.BatcherConfig}
    {flush : Batcher.Flush} {gateway : Batcher.Gateway} {o : List Batcher.Observation}
    {anchor : Anchor.State} {o' : List Anchor.Observation}
    (hconfig : s.config.blockchain = some blockchain)
    (hbatcher : s.gateway.batcher = some (config, flush))
    (hstep : Batcher.gatewayStep codecs s.gateway (.commit createdAt) = some (gateway, o))
    (hanchor : Anchor.anchorStep blockchain.anchor s.anchorState
      (.commit createdAt flush.consumed flush.prepared) = some (anchor, o')) :
    Move s { s with gateway } (o.map .store ++ o'.map .anchor)
  | anchor {blockchain : Blockchain} {e : Anchor.Event} {anchor : Anchor.State}
    {o : List Anchor.Observation} (hconfig : s.config.blockchain = some blockchain)
    (hown : isAnchors e = true)
    (hstep : Anchor.anchorStep blockchain.anchor s.anchorState e = some (anchor, o)) :
    Move s
      { s with
        gateway := { s.gateway with tables := anchor.tables }
        anchor := ⟨anchor.shutdown, anchor.issued, anchor.control⟩ }
      ((confirmation s.gateway.tables (s.confirms e)).map .store ++ o.map .anchor)
  | restart {config : EdgeConfig} {faults : StoreCall → Option StoreError} {s' : EdgeApp}
    (hstart : EdgeApp.start config faults s.gateway.tables = some s') :
    Move s s' [.anchor .restarted, .started config]

end

section

variable {codecs : Batcher.Codecs} {verify : Ed25519Verify} {sha256 : Sha256} {s s' : EdgeApp}
  {o : List Observation}

theorem runPipeline_eq_some {e : Pipeline.Event}
    (h : s.runPipeline verify sha256 e = some (s', o)) :
    ∃ pipeline o', pipelineStep verify sha256 s.pipeline e = some (pipeline, o') ∧
      s' = { s with pipeline } ∧ o = o'.map .pipeline := by
  obtain ⟨⟨pipeline, o'⟩, hstep, heq⟩ := Option.map_eq_some_iff.mp h
  obtain ⟨rfl, rfl⟩ := Prod.mk.inj heq
  exact ⟨pipeline, o', hstep, rfl, rfl⟩

theorem runBatcher_eq_some {e : Batcher.Event} (h : s.runBatcher codecs e = some (s', o)) :
    ∃ gateway o', Batcher.gatewayStep codecs s.gateway e = some (gateway, o') ∧
      s' = { s with gateway } ∧ o = o'.map .store := by
  obtain ⟨⟨gateway, o'⟩, hstep, heq⟩ := Option.map_eq_some_iff.mp h
  obtain ⟨rfl, rfl⟩ := Prod.mk.inj heq
  exact ⟨gateway, o', hstep, rfl, rfl⟩

theorem runAnchor_eq_some {anchor : Anchor.Anchor} {e : Anchor.Event}
    (h : s.runAnchor anchor e = some (s', o)) :
    ∃ a o', Anchor.anchorStep anchor s.anchorState e = some (a, o') ∧
      s' = { s with
        gateway := { s.gateway with tables := a.tables }
        anchor := ⟨a.shutdown, a.issued, a.control⟩ } ∧ o = o'.map .anchor := by
  obtain ⟨⟨a, o'⟩, hstep, heq⟩ := Option.map_eq_some_iff.mp h
  obtain ⟨rfl, rfl⟩ := Prod.mk.inj heq
  exact ⟨a, o', hstep, rfl, rfl⟩

theorem move_of_post {body : Bytes} {receivedAt : Timestamp}
    (hstep : edgeStep codecs verify sha256 s (.post body receivedAt) = some (s', o)) :
    Move codecs verify sha256 s s' o := by
  simp only [edgeStep] at hstep
  split_ifs at hstep with hlimit hlen
  · obtain ⟨rfl, rfl⟩ := Prod.mk.inj (Option.some.inj hstep)
    exact .turnAway (.inl ⟨body, rfl⟩)
  · rcases ingest_cases codecs.prost s.closed s.channel body receivedAt with
      ⟨status, text, heq, hstatus⟩ | ⟨envelope, channel, heq, hdecode, -, hsend⟩
    · rw [heq] at hstep
      obtain ⟨rfl, rfl⟩ := Prod.mk.inj (Option.some.inj hstep)
      exact .turnAway (.inr ⟨body, status, text, rfl, hstatus⟩)
    · rw [heq] at hstep
      obtain ⟨rfl, rfl⟩ := Prod.mk.inj (Option.some.inj hstep)
      exact .post hlen hdecode hsend

/-- **Every step is one of the moves.**  A move names the part that goes on, with the step of
that part alone, and what the step is to the others. -/
theorem move_of_edgeStep {e : Event} (hstep : edgeStep codecs verify sha256 s e = some (s', o)) :
    Move codecs verify sha256 s s' o := by
  cases e with
  | post body receivedAt => exact move_of_post hstep
  | reserve =>
    simp only [edgeStep] at hstep
    split_ifs at hstep
    obtain ⟨channel, hreserve, heq⟩ := Option.map_eq_some_iff.mp hstep
    obtain ⟨rfl, rfl⟩ := Prod.mk.inj heq
    obtain ⟨hitems, hcapacity⟩ := BoundedQueue.of_reserve hreserve
    exact .place hitems hcapacity
  | release =>
    obtain ⟨channel, hrelease, heq⟩ := Option.map_eq_some_iff.mp hstep
    obtain ⟨rfl, rfl⟩ := Prod.mk.inj heq
    obtain ⟨hitems, hcapacity⟩ := BoundedQueue.of_release hrelease
    exact .place hitems hcapacity
  | radio rawEnvelope meshSender receivedAt =>
    simp only [edgeStep] at hstep
    split_ifs at hstep with hopen
    split at hstep
    · exact absurd hstep (by simp)
    · next envelope hdecode =>
      obtain ⟨channel, hsend, heq⟩ := Option.map_eq_some_iff.mp hstep
      obtain ⟨rfl, rfl⟩ := Prod.mk.inj heq
      exact .radio hopen.1 hdecode hsend
  | recv =>
    obtain ⟨⟨message, channel⟩, hrecv, hrun⟩ := Option.bind_eq_some_iff.mp hstep
    obtain ⟨pipeline, o', hpipeline, rfl, rfl⟩ := runPipeline_eq_some hrun
    exact .recv hrecv hpipeline
  | pipeline e =>
    simp only [edgeStep] at hstep
    split_ifs at hstep with hown
    obtain ⟨pipeline, o', hpipeline, rfl, rfl⟩ := runPipeline_eq_some hstep
    exact .pipeline hown hpipeline
  | push fault =>
    simp only [edgeStep] at hstep
    split at hstep
    · next v error hdelivering hanswer =>
      obtain ⟨rfl, rfl⟩ := Prod.mk.inj (Option.some.inj hstep)
      exact .pushFailed (by rw [hdelivering]; rfl)
    · next v hdelivering hanswer =>
      rw [EdgeApp.push] at hstep
      split at hstep
      · obtain ⟨rfl, rfl⟩ := Prod.mk.inj (Option.some.inj hstep)
        exact .pushFailed (by rw [hdelivering]; rfl)
      · next stored tables hdeliver =>
        obtain ⟨rfl, rfl⟩ := Prod.mk.inj (Option.some.inj hstep)
        exact .push hdelivering hdeliver
    · exact absurd hstep (by simp)
  | answer =>
    obtain ⟨result, hanswer, hrun⟩ := Option.bind_eq_some_iff.mp hstep
    obtain ⟨pipeline, o', hpipeline, rfl, rfl⟩ := runPipeline_eq_some hrun
    exact .answer hanswer hpipeline
  | plan now force =>
    obtain ⟨blockchain, hconfig, hrun⟩ := Option.bind_eq_some_iff.mp hstep
    obtain ⟨gateway, o', hgateway, rfl, rfl⟩ := runBatcher_eq_some hrun
    exact .plan hconfig hgateway
  | commit createdAt =>
    obtain ⟨blockchain, hconfig, hstep⟩ := Option.bind_eq_some_iff.mp hstep
    obtain ⟨⟨config, flush⟩, hbatcher, hstep⟩ := Option.bind_eq_some_iff.mp hstep
    obtain ⟨next, hnext, hstep⟩ := Option.bind_eq_some_iff.mp hstep
    obtain ⟨seen, hseen, heq⟩ := Option.bind_eq_some_iff.mp hstep
    obtain ⟨rfl, rfl⟩ := Prod.mk.inj (Option.some.inj heq)
    obtain ⟨gateway, o₁, hgateway, hs, ho⟩ := runBatcher_eq_some hnext
    obtain ⟨a, o₂, hanchor, -, ho'⟩ := runAnchor_eq_some hseen
    rw [hs, ho, ho']
    exact .commit hconfig hbatcher hgateway hanchor
  | anchor e =>
    simp only [edgeStep] at hstep
    split_ifs at hstep with hown
    obtain ⟨blockchain, hconfig, hstep⟩ := Option.bind_eq_some_iff.mp hstep
    obtain ⟨next, hnext, heq⟩ := Option.bind_eq_some_iff.mp hstep
    obtain ⟨rfl, rfl⟩ := Prod.mk.inj (Option.some.inj heq)
    obtain ⟨a, o', hanchor, hs, ho⟩ := runAnchor_eq_some hnext
    rw [hs, ho]
    exact .anchor hconfig hown hanchor
  | restart config faults =>
    obtain ⟨s', hstart, heq⟩ := Option.map_eq_some_iff.mp hstep
    obtain ⟨rfl, rfl⟩ := Prod.mk.inj heq
    exact .restart hstart

end

/-! ## Reading a history

Each part sees its own observations and those of the store that others have caused.  The anchor
sees a commit of the batcher as an arrival of batches, and the batcher sees a removal by the
anchor as a confirmation, so both histories are such as the parts have when they are alone. -/

/-- What the pipelines of all processes have shown. -/
def pipelinePart (h : List Observation) : List Pipeline.Observation :=
  h.filterMap fun | .pipeline a => some a | _ => none

/-- What was seen at the store. -/
def storePart (h : List Observation) : List Batcher.Observation :=
  h.filterMap fun | .store a => some a | _ => none

/-- What the anchors of all processes have shown. -/
def anchorPart (h : List Observation) : List Anchor.Observation :=
  h.filterMap fun | .anchor a => some a | _ => none

/-- The messages that entered a channel. -/
def queuedPart (h : List Observation) : List IngressMessage :=
  h.filterMap fun | .queued message => some message | _ => none

section

variable (h k : List Observation)

@[simp] theorem pipelinePart_append : pipelinePart (h ++ k) = pipelinePart h ++ pipelinePart k :=
  List.filterMap_append

@[simp] theorem storePart_append : storePart (h ++ k) = storePart h ++ storePart k :=
  List.filterMap_append

@[simp] theorem anchorPart_append : anchorPart (h ++ k) = anchorPart h ++ anchorPart k :=
  List.filterMap_append

@[simp] theorem queuedPart_append : queuedPart (h ++ k) = queuedPart h ++ queuedPart k :=
  List.filterMap_append

end

section

variable (o : List Pipeline.Observation)

@[simp] theorem pipelinePart_map_pipeline : pipelinePart (o.map .pipeline) = o := by
  rw [pipelinePart, List.filterMap_map]
  exact List.filterMap_some

@[simp] theorem storePart_map_pipeline : storePart (o.map .pipeline) = [] := by
  simp [storePart]

@[simp] theorem anchorPart_map_pipeline : anchorPart (o.map .pipeline) = [] := by
  simp [anchorPart]

@[simp] theorem queuedPart_map_pipeline : queuedPart (o.map .pipeline) = [] := by
  simp [queuedPart]

end

section

variable (o : List Batcher.Observation)

@[simp] theorem pipelinePart_map_store : pipelinePart (o.map .store) = [] := by
  simp [pipelinePart]

@[simp] theorem storePart_map_store : storePart (o.map .store) = o := by
  rw [storePart, List.filterMap_map]
  exact List.filterMap_some

@[simp] theorem anchorPart_map_store : anchorPart (o.map .store) = [] := by
  simp [anchorPart]

@[simp] theorem queuedPart_map_store : queuedPart (o.map .store) = [] := by
  simp [queuedPart]

end

section

variable (o : List Anchor.Observation)

@[simp] theorem pipelinePart_map_anchor : pipelinePart (o.map .anchor) = [] := by
  simp [pipelinePart]

@[simp] theorem storePart_map_anchor : storePart (o.map .anchor) = [] := by
  simp [storePart]

@[simp] theorem anchorPart_map_anchor : anchorPart (o.map .anchor) = o := by
  rw [anchorPart, List.filterMap_map]
  exact List.filterMap_some

@[simp] theorem queuedPart_map_anchor : queuedPart (o.map .anchor) = [] := by
  simp [queuedPart]

end

/-! ## Sessions -/

def Observation.started? : Observation → Option EdgeConfig
  | .started config => some config
  | _ => none

/-- What has been seen of the process that runs. -/
def session (h : List Observation) : List Observation := h.rtakeWhile fun a => a.started?.isNone

/-- The configuration of the process that runs; the first one had `config`. -/
def configuration (config : EdgeConfig) (h : List Observation) : EdgeConfig :=
  (h.filterMap Observation.started?).getLast?.getD config

theorem session_append {h o : List Observation} (ho : ∀ a ∈ o, a.started? = none) :
    session (h ++ o) = session h ++ o := by
  have htake : o.reverse.takeWhile (fun a => a.started?.isNone) = o.reverse :=
    List.takeWhile_eq_self_iff.mpr fun a ha => by rw [ho a (List.mem_reverse.mp ha)]; rfl
  have hall : ∀ a ∈ o.reverse, a.started?.isNone = true := fun a ha => by
    rw [ho a (List.mem_reverse.mp ha)]
    rfl
  rw [session, List.rtakeWhile, List.reverse_append, List.takeWhile_append_of_pos hall,
    List.reverse_append, List.reverse_reverse]
  rfl

theorem session_started (h o : List Observation) (config : EdgeConfig) :
    session (h ++ (o ++ [.started config])) = [] := by
  simp [session, List.rtakeWhile, Observation.started?]

theorem configuration_append (config : EdgeConfig) {h o : List Observation}
    (ho : ∀ a ∈ o, a.started? = none) : configuration config (h ++ o) = configuration config h := by
  have hnil : o.filterMap Observation.started? = [] := List.filterMap_eq_nil_iff.mpr ho
  rw [configuration, List.filterMap_append, hnil, List.append_nil, configuration]

theorem configuration_started (config config' : EdgeConfig) (h o : List Observation) :
    configuration config (h ++ (o ++ [.started config'])) = config' := by
  have hlast : [Observation.started config'].filterMap Observation.started? = [config'] := rfl
  rw [configuration, List.filterMap_append, List.filterMap_append, hlast, ← List.append_assoc,
    List.getLast?_concat, Option.getD_some]

/-- A step is one of the process that runs, or starts another. -/
theorem Move.session {codecs : Batcher.Codecs} {verify : Ed25519Verify} {sha256 : Sha256}
    {s s' : EdgeApp} {o : List Observation} (hmove : Move codecs verify sha256 s s' o) :
    ((∀ a ∈ o, a.started? = none) ∧ s'.config = s.config) ∨
      ∃ config faults, o = [.anchor .restarted] ++ [.started config] ∧
        EdgeApp.start config faults s.gateway.tables = some s' := by
  cases hmove with
  | restart hstart => exact .inr ⟨_, _, rfl, hstart⟩
  | turnAway ha =>
    refine .inl ⟨fun a hmem => ?_, rfl⟩
    obtain rfl := List.mem_singleton.mp hmem
    rcases ha with ⟨body, rfl⟩ | ⟨body, status, text, rfl, -⟩ <;> rfl
  | post | place | radio | pushFailed | push => exact .inl ⟨by simp [Observation.started?], rfl⟩
  | recv | pipeline | answer | plan => exact .inl ⟨by simp [Observation.started?], rfl⟩
  | commit | anchor =>
    refine .inl ⟨fun a hmem => ?_, rfl⟩
    rcases List.mem_append.mp hmem with hmem | hmem <;>
    · obtain ⟨b, -, rfl⟩ := List.mem_map.mp hmem
      rfl

end Edge
end Robins
