import Robins.Pipeline.Authorize
import Robins.Pipeline.Dedup
import Robins.Lib.EventMachine

/-!
# The acceptance pipeline

`run` takes one message or one finished lookup at a time and works on it until it is settled:
verify, authorize, deduplicate, fan out.  It waits in four places --- in its own `select!`, in that
of `process` while the stage is full, for a sink, and between two attempts to deliver to a required
sink --- and `Control` says in which it is and what is left to do when the wait is over.

Each step is one event: a message or the end of ingress, an answer of the policy, a finished
lookup, the clock read by the duplicate cache, the answer of a sink, the end of a delay, shutdown
being requested, shutdown being noticed.  Where several branches of a `select!` are ready, any of
them may be taken.

What the code does between two waits is one step, and the functions of this step are those of the
code.  `Move` lists what a step can do, each with the conditions under which it is taken and with
all that changes (`move_of_pipelineStep`); proofs about runs go by this list and not by the
functions.
-/

namespace Robins
namespace Pipeline

open Protocol Auth

set_option linter.dupNamespace false

/-! ## Configuration -/

/-- First delay after a required sink failed. -/
def requiredRetryInitial : Duration := 100

/-- Longest delay after a required sink failed. -/
def requiredRetryMax : Duration := 5000

/-- A sink, as the pipeline sees it. -/
structure Sink where
  name : String
  required : Bool
  deriving DecidableEq, Repr

/-- The pipeline's parts.  Its policy answers by events. -/
structure Pipeline where
  authLimits : AuthLimits
  dedup : DedupCache
  sinks : List Sink
  requiredRetry : Duration × Duration

/-- A pipeline with the default bounds. -/
def Pipeline.new (dedup : DedupCache) (sinks : List Sink) : Pipeline where
  authLimits := .default
  dedup := dedup
  sinks := sinks
  requiredRetry := (requiredRetryInitial, requiredRetryMax)

/-! ## State -/

/-- What is left of a resolution: the messages not yet handled, and the message
that `process` holds back until then. -/
structure Remaining where
  decision : Decision
  messages : List Verified
  held : Option Verified

/-- A message on its way to the sinks. -/
structure Delivery where
  message : Verified
  index : ℕ
  delay : Duration
  /-- No required sink was given up. -/
  complete : Bool
  rest : Remaining

/-- Where the pipeline waits. -/
inductive Control where
  /-- In the `select!` of `run`. -/
  | select
  /-- In `process`, before `admit`. -/
  | admitting (message : Verified)
  /-- In the `select!` of `process`: the stage is full. -/
  | held (message : Verified)
  /-- In the loop of `resolve`. -/
  | resolving (rest : Remaining)
  /-- In `fan_out`, waiting for a sink. -/
  | delivering (delivery : Delivery)
  /-- In `fan_out`, between two attempts at a required sink. -/
  | backoff (delivery : Delivery)
  | stopped

structure State where
  pipeline : Pipeline
  stage : AuthStage
  ingressOpen : Bool
  shutdown : Bool
  control : Control

/-- The start of `run`. -/
def State.start (pipeline : Pipeline) : State :=
  ⟨pipeline, .new pipeline.authLimits, true, false, .select⟩

/-! ## Events and observations -/

/-- What the world contributes to a step. -/
inductive Event where
  | requestShutdown
  | ingress (message : IngressMessage)
  | ingressClosed
  | admission (ids : TaskIds) (known : Option Bool)
  | lookupDone (ids : TaskIds) (id : TaskId) (taskEnd : TaskEnd)
  | handle (now : Instant)
  | sink (result : Except SinkError Unit)
  | slept
  | stop

inductive Outcome where
  | rejected (error : ProtocolError)
  | denied
  | lookupFailed (error : AuthError)
  | duplicate (id : EnvelopeId)
  | accepted
  /-- Given up at shutdown. -/
  | abandoned
  deriving DecidableEq

inductive Observation where
  | took (message : IngressMessage)
  | tried (message : Verified) (known : Option Bool)
  | resolved (sensorId : SensorId) (resolution : Resolution)
  | handed (index : ℕ) (message : AcceptedMessage) (result : Except SinkError Unit)
  | settled (message : IngressMessage) (outcome : Outcome)

/-! ## Steps -/

/-- Back to the loop of `run`, which ends when nothing is left to wait for. -/
def State.loop (s : State) : State :=
  { s with control := if s.ingressOpen || s.stage.isBusy then .select else .stopped }

/-- On with a resolution; when it is done, with the message held back. -/
def State.proceed (s : State) (rest : Remaining) : State :=
  match rest.messages, rest.held with
  | [], none => s.loop
  | [], some message => { s with control := .admitting message }
  | _ :: _, _ => { s with control := .resolving rest }

/-- On with a delivery: to the next sink, or to its end, where a message that was
not delivered to a required sink is forgotten. -/
def State.fanOut (sha256 : Sha256) (s : State) (delivery : Delivery) :
    State × List Observation :=
  let message := delivery.message.message
  if delivery.index < s.pipeline.sinks.length then
    ({ s with control := .delivering delivery }, [])
  else if delivery.complete then
    (s.proceed delivery.rest, [.settled message .accepted])
  else
    let dedup := s.pipeline.dedup.forget (envelopeId sha256 message.rawEnvelope)
    (State.proceed { s with pipeline := { s.pipeline with dedup } } delivery.rest,
      [.settled message .abandoned])

/-- On to the next sink. -/
def Delivery.advance (p : Pipeline) (delivery : Delivery) : Delivery :=
  { delivery with index := delivery.index + 1, delay := p.requiredRetry.1 }

/-- Once more to the same sink; the next delay is twice as long, within its bound. -/
def Delivery.retry (p : Pipeline) (delivery : Delivery) : Delivery :=
  { delivery with delay := min (delivery.delay * 2) p.requiredRetry.2 }

/-- Deduplicate an authorized message and begin to fan it out. -/
def State.accept (sha256 : Sha256) (s : State) (now : Instant) (message : Verified)
    (rest : Remaining) : State × List Observation :=
  let id := envelopeId sha256 message.message.rawEnvelope
  let (new, dedup) := s.pipeline.dedup.insertIfNewAt id now
  let s := { s with pipeline := { s.pipeline with dedup } }
  if new then s.fanOut sha256 ⟨message, 0, s.pipeline.requiredRetry.1, true, rest⟩
  else (s.proceed rest, [.settled message.message (.duplicate id)])

/-- Act on a decision about a message. -/
def State.decide (sha256 : Sha256) (s : State) (now : Instant) (message : Verified)
    (rest : Remaining) : State × List Observation :=
  match rest.decision with
  | .ok true => s.accept sha256 now message rest
  | .ok false => (s.proceed rest, [.settled message.message .denied])
  | .error error => (s.proceed rest, [.settled message.message (.lookupFailed error)])

/-- The answer of the stage to a message: decide it, leave it there, or hold it back. -/
def State.afterAdmission (s : State) (stage : AuthStage) : Admission → State
  | .decided allowed message => State.proceed { s with stage } ⟨.ok allowed, [message], none⟩
  | .parked => State.loop { s with stage }
  | .overflow message => { s with stage, control := .held message }

/-- Take up a finished lookup; the message `held` waits until it is resolved. -/
def State.resolve (s : State) (ids : TaskIds) (id : TaskId) (taskEnd : TaskEnd)
    (held : Option Verified) : Option (State × List Observation) := do
  let (sensorId, _) ← s.stage.join id taskEnd
  let (resolution, stage) ← s.stage.nextResolution ids id taskEnd
  some (State.proceed { s with stage } ⟨resolution.decision, resolution.messages, held⟩,
    [.resolved sensorId resolution])

def pipelineStep (verify : Ed25519Verify) (sha256 : Sha256) (s : State) (e : Event) :
    Option (State × List Observation) :=
  match s.control, e with
  | _, .requestShutdown => some ({ s with shutdown := true }, [])
  -- the `select!` of `run`
  | .select, .stop => if s.shutdown then some ({ s with control := .stopped }, []) else none
  | .select, .lookupDone ids id taskEnd =>
    if s.stage.isBusy then s.resolve ids id taskEnd none else none
  | .select, .ingress message =>
    if s.ingressOpen then
      match verifyEnvelope verify message.envelope with
      | .error error => some (s.loop, [.took message, .settled message (.rejected error)])
      | .ok verified => some ({ s with control := .admitting ⟨message, verified⟩ }, [.took message])
    else none
  | .select, .ingressClosed =>
    if s.ingressOpen then some (State.loop { s with ingressOpen := false }, []) else none
  -- the loop of `process`
  | .admitting message, .admission ids known =>
    let (admission, stage) := s.stage.admitMessage ids known message
    some (s.afterAdmission stage admission, [.tried message known])
  | .held message, .stop =>
    if s.shutdown then some (s.loop, [.settled message.message .abandoned]) else none
  | .held message, .lookupDone ids id taskEnd => s.resolve ids id taskEnd (some message)
  -- the loop of `resolve`
  | .resolving rest, .handle now =>
    match rest.messages with
    | [] => none
    | message :: messages => some (s.decide sha256 now message { rest with messages })
  -- the loop of `fan_out`
  | .delivering delivery, .sink result =>
    match s.pipeline.sinks[delivery.index]? with
    | none => none
    | some sink =>
      let handed := Observation.handed delivery.index (delivery.message.accepted sha256) result
      match result, sink.required with
      | .error _, true => some ({ s with control := .backoff delivery }, [handed])
      | _, _ =>
        let (s, o) := s.fanOut sha256 (delivery.advance s.pipeline)
        some (s, handed :: o)
  | .backoff delivery, .slept =>
    some ({ s with control := .delivering (delivery.retry s.pipeline) }, [])
  | .backoff delivery, .stop =>
    if s.shutdown then
      some (s.fanOut sha256 ({ delivery with complete := false }.advance s.pipeline))
    else none
  | _, _ => none

def pipelineMachine (verify : Ed25519Verify) (sha256 : Sha256) :
    EventMachine State Event Observation := ⟨pipelineStep verify sha256⟩

/-! ## What a step can do -/

/-- The steps of the pipeline, each with the conditions under which it is taken. -/
inductive Move (verify : Ed25519Verify) (sha256 : Sha256) (s : State) :
    Event → State → List Observation → Prop
  | requestShutdown : Move verify sha256 s .requestShutdown { s with shutdown := true } []
  | stop (hcontrol : s.control = .select) (hshutdown : s.shutdown = true) :
    Move verify sha256 s .stop { s with control := .stopped } []
  | resolve {ids : TaskIds} {id : TaskId} {taskEnd : TaskEnd} {held : Option Verified} {s' : State}
    {o : List Observation}
    (hcontrol : (s.control = .select ∧ held = none) ∨ ∃ v, s.control = .held v ∧ held = some v)
    (hresolve : s.resolve ids id taskEnd held = some (s', o)) :
    Move verify sha256 s (.lookupDone ids id taskEnd) s' o
  | reject {message : IngressMessage} {error : ProtocolError} (hcontrol : s.control = .select)
    (herror : verifyEnvelope verify message.envelope = .error error) :
    Move verify sha256 s (.ingress message) s.loop
      [.took message, .settled message (.rejected error)]
  | take {message : IngressMessage} {verified : VerifiedEnvelope} (hcontrol : s.control = .select)
    (hverified : verifyEnvelope verify message.envelope = .ok verified) :
    Move verify sha256 s (.ingress message) { s with control := .admitting ⟨message, verified⟩ }
      [.took message]
  | close (hcontrol : s.control = .select) :
    Move verify sha256 s .ingressClosed (State.loop { s with ingressOpen := false }) []
  | admission {v : Verified} {ids : TaskIds} {known : Option Bool} {admission : Admission}
    {stage : AuthStage} (hcontrol : s.control = .admitting v)
    (hadmission : s.stage.admitMessage ids known v = (admission, stage)) :
    Move verify sha256 s (.admission ids known) (s.afterAdmission stage admission) [.tried v known]
  | abandon {v : Verified} (hcontrol : s.control = .held v) (hshutdown : s.shutdown = true) :
    Move verify sha256 s .stop s.loop [.settled v.message .abandoned]
  | handle {v : Verified} {rest : Remaining} {now : Instant}
    (hcontrol : s.control = .resolving { rest with messages := v :: rest.messages }) :
    Move verify sha256 s (.handle now) (s.decide sha256 now v rest).1 (s.decide sha256 now v rest).2
  | failed {d : Delivery} {sink : Sink} {error : SinkError} (hcontrol : s.control = .delivering d)
    (hsink : s.pipeline.sinks[d.index]? = some sink) (hrequired : sink.required = true) :
    Move verify sha256 s (.sink (.error error)) { s with control := .backoff d }
      [.handed d.index (d.message.accepted sha256) (.error error)]
  | passed {d : Delivery} {sink : Sink} {result : Except SinkError Unit}
    (hcontrol : s.control = .delivering d) (hsink : s.pipeline.sinks[d.index]? = some sink)
    (hdone : sink.required = true → result = .ok ()) :
    Move verify sha256 s (.sink result) (s.fanOut sha256 (d.advance s.pipeline)).1
      (.handed d.index (d.message.accepted sha256) result ::
        (s.fanOut sha256 (d.advance s.pipeline)).2)
  | slept {d : Delivery} (hcontrol : s.control = .backoff d) :
    Move verify sha256 s .slept
      { s with control := .delivering (d.retry s.pipeline) } []
  | giveUp {d : Delivery} (hcontrol : s.control = .backoff d) (hshutdown : s.shutdown = true) :
    Move verify sha256 s .stop
      (s.fanOut sha256 ({ d with complete := false }.advance s.pipeline)).1
      (s.fanOut sha256 ({ d with complete := false }.advance s.pipeline)).2

/-- **Every step is one of the moves.**  The accounts of the pipeline are kept move by move, so
each of them is as long as the list of moves and not as the code. -/
theorem move_of_pipelineStep {verify : Ed25519Verify} {sha256 : Sha256} {s s' : State} {e : Event}
    {o : List Observation} (hstep : pipelineStep verify sha256 s e = some (s', o)) :
    Move verify sha256 s e s' o := by
  unfold pipelineStep at hstep
  split at hstep
  · obtain ⟨rfl, rfl⟩ := Prod.mk.inj (Option.some.inj hstep)
    exact .requestShutdown
  · next hcontrol =>
    split_ifs at hstep with hshutdown
    obtain ⟨rfl, rfl⟩ := Prod.mk.inj (Option.some.inj hstep)
    exact .stop hcontrol hshutdown
  · next hcontrol =>
    split_ifs at hstep
    exact .resolve (.inl ⟨hcontrol, rfl⟩) hstep
  · next hcontrol =>
    split_ifs at hstep
    split at hstep
    · next error herror =>
      obtain ⟨rfl, rfl⟩ := Prod.mk.inj (Option.some.inj hstep)
      exact .reject hcontrol herror
    · next verified hverified =>
      obtain ⟨rfl, rfl⟩ := Prod.mk.inj (Option.some.inj hstep)
      exact .take hcontrol hverified
  · next hcontrol =>
    split_ifs at hstep
    obtain ⟨rfl, rfl⟩ := Prod.mk.inj (Option.some.inj hstep)
    exact .close hcontrol
  · next v ids known hcontrol =>
    obtain ⟨rfl, rfl⟩ := Prod.mk.inj (Option.some.inj hstep)
    exact .admission hcontrol rfl
  · next hcontrol =>
    split_ifs at hstep with hshutdown
    obtain ⟨rfl, rfl⟩ := Prod.mk.inj (Option.some.inj hstep)
    exact .abandon hcontrol hshutdown
  · next v ids id taskEnd hcontrol => exact .resolve (.inr ⟨v, hcontrol, rfl⟩) hstep
  · next rest now hcontrol =>
    split at hstep
    · exact absurd hstep (by simp)
    · next v messages hmessages =>
      obtain ⟨rfl, rfl⟩ := Prod.mk.inj (Option.some.inj hstep)
      refine .handle ?_
      rw [hcontrol, ← hmessages]
  · next d result hcontrol =>
    split at hstep
    · exact absurd hstep (by simp)
    · next sink hsink =>
      cases result with
      | ok =>
        obtain ⟨rfl, rfl⟩ := Prod.mk.inj (Option.some.inj hstep)
        exact .passed hcontrol hsink fun _ => rfl
      | error error =>
        cases hrequired : sink.required with
        | true =>
          simp only [hrequired] at hstep
          obtain ⟨rfl, rfl⟩ := Prod.mk.inj (Option.some.inj hstep)
          exact .failed hcontrol hsink hrequired
        | false =>
          simp only [hrequired] at hstep
          obtain ⟨rfl, rfl⟩ := Prod.mk.inj (Option.some.inj hstep)
          exact .passed hcontrol hsink fun h => absurd (hrequired.symm.trans h) (by simp)
  · next d hcontrol =>
    obtain ⟨rfl, rfl⟩ := Prod.mk.inj (Option.some.inj hstep)
    exact .slept hcontrol
  · next d hcontrol =>
    split_ifs at hstep with hshutdown
    obtain ⟨rfl, rfl⟩ := Prod.mk.inj (Option.some.inj hstep)
    exact .giveUp hcontrol hshutdown
  · exact absurd hstep (by simp)

end Pipeline
end Robins
