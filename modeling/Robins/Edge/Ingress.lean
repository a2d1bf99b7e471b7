import Robins.Edge.Store

/-!
# From the channel to the store

What holds of the process that runs, and so of what has been seen since it was started: the
pipeline is accounted for, the channel is what connects it with the transports, and the answers of
the durable sink are those of the store.

`Serving` is the account.  Three things need saying that neither part knows by itself.  A message
enters the channel with the bytes it was decoded from, and is acknowledged then and not later.  The
pipeline takes a message only in a step that gives it one up from the channel, so that what it has
taken, followed by what waits, is what came in.  And an answer of the durable sink that a message
was delivered is a transaction of the store with that message, so what the pipeline has accepted is
in the store.

Steps of the batcher and of the anchor leave all of this as it is (`Serving.quiet`).
-/

namespace Robins

namespace Pipeline

open Protocol Auth

variable {verify : Ed25519Verify} {sha256 : Sha256} {s s' : State} {e : Event}
  {o : List Observation}

/-- The message that an event brings. -/
def Event.ingress? : Event → Option IngressMessage
  | .ingress message => some message
  | _ => none

/-- Going on with a delivery shows at most an outcome. -/
theorem settled_of_mem_fanOut {d : Delivery} :
    ∀ a ∈ (s.fanOut sha256 d).2, ∃ message outcome, a = .settled message outcome := by
  unfold State.fanOut
  dsimp only
  split_ifs
  · exact fun a ha => absurd ha List.not_mem_nil
  · exact fun a ha => ⟨_, _, List.mem_singleton.mp ha⟩
  · exact fun a ha => ⟨_, _, List.mem_singleton.mp ha⟩

theorem settled_of_mem_decide {now : Instant} {v : Verified} {rest : Remaining} :
    ∀ a ∈ (s.decide sha256 now v rest).2, ∃ message outcome, a = .settled message outcome := by
  unfold State.decide State.accept
  dsimp only
  split
  · split_ifs
    · exact settled_of_mem_fanOut
    · exact fun a ha => ⟨_, _, List.mem_singleton.mp ha⟩
  · exact fun a ha => ⟨_, _, List.mem_singleton.mp ha⟩
  · exact fun a ha => ⟨_, _, List.mem_singleton.mp ha⟩

theorem taken_of_settled (h : ∀ a ∈ o, ∃ message outcome, a = .settled message outcome) :
    taken o = [] :=
  List.filterMap_eq_nil_iff.mpr fun a ha => by
    obtain ⟨message, outcome, rfl⟩ := h a ha
    rfl

/-- **A step takes the message that its event brings**, and no other. -/
theorem Move.taken_eq (hmove : Move verify sha256 s e s' o) : taken o = e.ingress?.toList := by
  cases hmove with
  | handle => exact taken_of_settled settled_of_mem_decide
  | passed =>
    rw [← List.singleton_append, taken_append, taken_of_settled settled_of_mem_fanOut]
    rfl
  | giveUp => exact taken_of_settled settled_of_mem_fanOut
  | resolve hcontrol hresolve =>
    obtain ⟨p, -, hresolve⟩ := Option.bind_eq_some_iff.mp hresolve
    obtain ⟨q, -, hresolve⟩ := Option.bind_eq_some_iff.mp hresolve
    obtain ⟨-, rfl⟩ := Prod.mk.inj (Option.some.inj hresolve)
    rfl
  | _ => rfl

/-- **A message is handed over** with the answer of the sink it is delivered to. -/
theorem Move.of_handed (hmove : Move verify sha256 s e s' o) {i : ℕ} {a : AcceptedMessage}
    {result : Except SinkError Unit} (ha : .handed i a result ∈ o) :
    e = .sink result ∧ ∃ d, s.control = .delivering d ∧ d.index = i ∧
      d.message.accepted sha256 = a := by
  have hnot : ∀ {l : List Observation}, (∀ b ∈ l, ∃ message outcome, b = .settled message outcome) →
      .handed i a result ∉ l := fun hl hmem => by
    obtain ⟨message, outcome, heq⟩ := hl _ hmem
    exact absurd heq (by simp)
  cases hmove with
  | handle => exact absurd ha (hnot settled_of_mem_decide)
  | giveUp => exact absurd ha (hnot settled_of_mem_fanOut)
  | failed hcontrol =>
    obtain ⟨rfl, rfl, rfl⟩ := Observation.handed.inj (List.mem_singleton.mp ha)
    exact ⟨rfl, _, hcontrol, rfl, rfl⟩
  | passed hcontrol =>
    rcases List.mem_cons.mp ha with heq | hmem
    · obtain ⟨rfl, rfl, rfl⟩ := Observation.handed.inj heq
      exact ⟨rfl, _, hcontrol, rfl, rfl⟩
    · exact absurd hmem (hnot settled_of_mem_fanOut)
  | resolve hcontrol hresolve =>
    obtain ⟨p, -, hresolve⟩ := Option.bind_eq_some_iff.mp hresolve
    obtain ⟨q, -, hresolve⟩ := Option.bind_eq_some_iff.mp hresolve
    obtain ⟨-, rfl⟩ := Prod.mk.inj (Option.some.inj hresolve)
    exact absurd ha (by simp)
  | _ => exact absurd ha (by simp)

/-- While a message is with a sink, the control waits for the answer. -/
theorem Move.of_delivering (hmove : Move verify sha256 s e s' o) {d : Delivery}
    (hcontrol : s.control = .delivering d) :
    s'.control = s.control ∨ ∃ result, e = .sink result := by
  cases hmove with
  | requestShutdown => exact .inl rfl
  | failed | passed => exact .inr ⟨_, rfl⟩
  | resolve h =>
    rcases h with ⟨h, -⟩ | ⟨v, h, -⟩ <;> exact absurd (h.symm.trans hcontrol) (by simp)
  | stop h | reject h | take h | close h | admission h
  | abandon h | handle h | slept h | giveUp h =>
    exact absurd (h.symm.trans hcontrol) (by simp)

end Pipeline

namespace Edge

open Protocol BatchStore Pipeline

/-! ## Reading a session -/

def acknowledged (h : List Observation) : List Bytes :=
  h.filterMap fun | .answered body .accepted _ => some body | _ => none

/-- The bodies of the messages that came over HTTP. -/
def posted (messages : List IngressMessage) : List Bytes :=
  (messages.filter fun m => decide (m.transport.transport = .http)).map IngressMessage.rawEnvelope

@[simp] theorem acknowledged_append (h k : List Observation) :
    acknowledged (h ++ k) = acknowledged h ++ acknowledged k := List.filterMap_append

@[simp] theorem posted_append (l m : List IngressMessage) :
    posted (l ++ m) = posted l ++ posted m := by
  rw [posted, List.filter_append, List.map_append]
  rfl

/-- The message is in the store, with its bytes and the time it was received. -/
def InStore (h : List Observation) (a : AcceptedMessage) : Prop :=
  ∃ m ∈ Batcher.pushes (storePart h), m.envelope = a.rawEnvelope ∧ m.receivedAt = a.receivedAt

theorem InStore.append {h : List Observation} {a : AcceptedMessage} (hs : InStore h a)
    (o : List Observation) : InStore (h ++ o) a := by
  obtain ⟨m, hm, heq⟩ := hs
  refine ⟨m, ?_, heq⟩
  rw [storePart_append, Batcher.pushes_append]
  exact List.mem_append_left _ hm

variable {codecs : Batcher.Codecs} {verify : Ed25519Verify} {sha256 : Sha256}
  {h o : List Observation} {s s' : EdgeApp}

/-- The session `h` of the process that runs. -/
structure Serving (codecs : Batcher.Codecs) (verify : Ed25519Verify) (sha256 : Sha256)
    (h : List Observation) (s : EdgeApp) : Prop where
  pipeline : ∃ room, Pipeline.Tracked verify sha256 s.config.sinks (pipelinePart h) s.pipeline room
  /-- Messages leave the channel in the order in which they came. -/
  queued : queuedPart h = taken (pipelinePart h) ++ s.channel.items
  capacity : s.channel.capacity = max s.config.ingressBuffer 1
  decoded : ∀ message ∈ queuedPart h, message.rawEnvelope.length ≤ isizeMax ∧
    decodeEnvelope codecs.prost message.rawEnvelope = .ok message.envelope
  acknowledged : acknowledged h = posted (queuedPart h)
  /-- The answer waits for the message that the durable sink is given. -/
  answering : ∀ result, s.answer = some result → ∃ v, s.delivering = some v ∧
    (result = .ok () → InStore h (v.accepted sha256))
  /-- With anchoring, what the first sink took is in the store. -/
  durable : s.config.blockchain.isSome → ∀ a, .handed 0 a (.ok ()) ∈ pipelinePart h → InStore h a

namespace Serving

theorem spawn (config : EdgeConfig) (store : Tables) :
    Serving codecs verify sha256 [] (.spawn config store) where
  pipeline := ⟨[], .start rfl rfl⟩
  queued := rfl
  capacity := rfl
  decoded message hmem := absurd hmem List.not_mem_nil
  acknowledged := rfl
  answering result heq := absurd heq (by simp [EdgeApp.spawn])
  durable _ a ha := absurd ha List.not_mem_nil

/-- The message with the durable sink is verified and allowed. -/
theorem delivering (sv : Serving codecs verify sha256 h s) {v : Verified}
    (hv : s.delivering = some v) : Genuine verify (pipelinePart h) v ∧
      Answered (pipelinePart h) v (.ok true) ∧ v.message ∈ queuedPart h := by
  obtain ⟨room, t⟩ := sv.pipeline
  obtain ⟨d, hcontrol, rfl⟩ : ∃ d, s.pipeline.control = .delivering d ∧ d.message = v := by
    unfold EdgeApp.delivering at hv
    split at hv
    · next d hcontrol =>
      split_ifs at hv
      exact ⟨d, hcontrol, Option.some.inj hv⟩
    · exact absurd hv (by simp)
  have hgenuine : Genuine verify (pipelinePart h) d.message := by
    refine t.genuine d.message (List.mem_append_right _ ?_)
    rw [hcontrol]
    exact List.mem_cons_self
  have hknows : Delivery.Underway sha256 s.config.sinks (pipelinePart h) d := by
    have hk := t.knows
    rw [hcontrol] at hk
    exact hk
  refine ⟨hgenuine, hknows.allowed, ?_⟩
  rw [sv.queued]
  exact List.mem_append_left _ (List.mem_filterMap.mpr ⟨_, hgenuine.1, rfl⟩)

/-- What others see, the session that runs may leave out. -/
theorem quiet (sv : Serving codecs verify sha256 h s) (hpipeline : s'.pipeline = s.pipeline)
    (hconfig : s'.config = s.config) (hitems : s'.channel.items = s.channel.items)
    (hcapacity : s'.channel.capacity = s.channel.capacity) (hanswer : s'.answer = s.answer)
    (hshown : pipelinePart o = []) (hqueued : queuedPart o = [])
    (hacknowledged : Edge.acknowledged o = []) : Serving codecs verify sha256 (h ++ o) s' := by
  have hdelivering : s'.delivering = s.delivering := by
    rw [EdgeApp.delivering, hpipeline, hconfig]
    rfl
  refine ⟨?_, ?_, ?_, ?_, ?_, ?_, ?_⟩
  · rw [pipelinePart_append, hshown, List.append_nil, hconfig, hpipeline]
    exact sv.pipeline
  · rw [queuedPart_append, hqueued, List.append_nil, pipelinePart_append, hshown, List.append_nil,
      hitems]
    exact sv.queued
  · rw [hcapacity, hconfig]
    exact sv.capacity
  · rw [queuedPart_append, hqueued, List.append_nil]
    exact sv.decoded
  · rw [acknowledged_append, hacknowledged, List.append_nil, queuedPart_append, hqueued,
      List.append_nil]
    exact sv.acknowledged
  · rw [hanswer, hdelivering]
    intro result heq
    obtain ⟨v, hv, hin⟩ := sv.answering result heq
    exact ⟨v, hv, fun hok => (hin hok).append o⟩
  · rw [hconfig, pipelinePart_append, hshown, List.append_nil]
    exact fun hsome a ha => (sv.durable hsome a ha).append o

/-- **A message enters the channel.** -/
theorem arrive (sv : Serving codecs verify sha256 h s) {message : IngressMessage}
    {channel : BoundedQueue IngressMessage} (hlen : message.rawEnvelope.length ≤ isizeMax)
    (hdecode : decodeEnvelope codecs.prost message.rawEnvelope = .ok message.envelope)
    (hitems : channel.items = s.channel.items ++ [message])
    (hcapacity : channel.capacity = s.channel.capacity) (hshown : pipelinePart o = [])
    (hqueued : queuedPart o = [message]) (hacknowledged : Edge.acknowledged o = posted [message]) :
    Serving codecs verify sha256 (h ++ o) { s with channel } := by
  refine ⟨?_, ?_, ?_, ?_, ?_, ?_, ?_⟩
  · rw [pipelinePart_append, hshown, List.append_nil]
    exact sv.pipeline
  · rw [queuedPart_append, hqueued, pipelinePart_append, hshown, List.append_nil, hitems, sv.queued,
      List.append_assoc]
  · rw [hcapacity]
    exact sv.capacity
  · rw [queuedPart_append, hqueued]
    intro message' hmem
    rcases List.mem_append.mp hmem with hmem | hmem
    · exact sv.decoded message' hmem
    · obtain rfl := List.mem_singleton.mp hmem
      exact ⟨hlen, hdecode⟩
  · rw [acknowledged_append, hacknowledged, queuedPart_append, hqueued, posted_append,
      sv.acknowledged]
  · intro result heq
    obtain ⟨v, hv, hin⟩ := sv.answering result heq
    exact ⟨v, hv, fun hok => (hin hok).append o⟩
  · rw [pipelinePart_append, hshown, List.append_nil]
    exact fun hsome a ha => (sv.durable hsome a ha).append o

/-- **The pipeline makes a step**: it takes what the channel gives up, and what the first
sink has taken is in the store. -/
theorem run (sv : Serving codecs verify sha256 h s) {e : Pipeline.Event}
    {channel : BoundedQueue IngressMessage} {answer : Option (Except SinkError Unit)}
    {pipeline : Pipeline.State} {o : List Pipeline.Observation}
    (hstep : pipelineStep verify sha256 s.pipeline e = some (pipeline, o))
    (hitems : s.channel.items = e.ingress?.toList ++ channel.items)
    (hcapacity : channel.capacity = s.channel.capacity)
    (hanswer : ∀ result, answer = some result → s.answer = some result ∧ ∀ r, e ≠ .sink r)
    (hhanded : s.config.blockchain.isSome → ∀ v, e = .sink (.ok ()) → s.delivering = some v →
      InStore h (v.accepted sha256)) :
    Serving codecs verify sha256 (h ++ o.map .pipeline) { s with channel, answer, pipeline } := by
  have hmove := move_of_pipelineStep hstep
  obtain ⟨room, t⟩ := sv.pipeline
  obtain ⟨room', t'⟩ := t.step hmove
  refine ⟨⟨room', ?_⟩, ?_, ?_, ?_, ?_, ?_, ?_⟩
  · rw [pipelinePart_append, pipelinePart_map_pipeline]
    exact t'
  · rw [queuedPart_append, queuedPart_map_pipeline, List.append_nil, pipelinePart_append,
      pipelinePart_map_pipeline, taken_append, hmove.taken_eq, sv.queued, hitems, List.append_assoc]
  · rw [hcapacity]
    exact sv.capacity
  · rw [queuedPart_append, queuedPart_map_pipeline, List.append_nil]
    exact sv.decoded
  · have hnone : Edge.acknowledged (o.map .pipeline) = [] := by simp [Edge.acknowledged]
    rw [acknowledged_append, hnone, List.append_nil, queuedPart_append, queuedPart_map_pipeline,
      List.append_nil]
    exact sv.acknowledged
  · intro result heq
    obtain ⟨hold, hnot⟩ := hanswer result heq
    obtain ⟨v, hv, hin⟩ := sv.answering result hold
    refine ⟨v, ?_, fun hok => (hin hok).append _⟩
    -- the pipeline waits for the answer
    have hsame : pipeline.control = s.pipeline.control := by
      have hwaits := hv
      unfold EdgeApp.delivering at hwaits
      split at hwaits
      · next d hcontrol =>
        rcases hmove.of_delivering hcontrol with hsame | ⟨r, heq⟩
        · exact hsame
        · exact absurd heq (hnot r)
      · exact absurd hwaits (by simp)
    rw [EdgeApp.delivering, hsame]
    exact hv
  · rw [pipelinePart_append, pipelinePart_map_pipeline]
    intro hsome a ha
    rcases List.mem_append.mp ha with hold | hnew
    · exact (sv.durable hsome a hold).append _
    · obtain ⟨heq, d, hcontrol, hindex, rfl⟩ := hmove.of_handed hnew
      refine (hhanded hsome d.message heq ?_).append _
      rw [EdgeApp.delivering, hcontrol]
      exact if_pos ⟨hsome, hindex⟩

/-- **Every step of the process keeps this.**  What the pipeline does it does as it does alone;
what the others do leaves pipeline and channel as they are. -/
theorem step (sv : Serving codecs verify sha256 h s) (hmove : Move codecs verify sha256 s s' o)
    (hsession : ∀ a ∈ o, a.started? = none) : Serving codecs verify sha256 (h ++ o) s' := by
  cases hmove with
  | turnAway ha =>
    refine sv.quiet rfl rfl rfl rfl rfl ?_ ?_ ?_
    · rcases ha with ⟨body, rfl⟩ | ⟨body, status, text, rfl, -⟩ <;> rfl
    · rcases ha with ⟨body, rfl⟩ | ⟨body, status, text, rfl, -⟩ <;> rfl
    · rcases ha with ⟨body, rfl⟩ | ⟨body, status, text, rfl, hstatus⟩
      · rfl
      · cases status with
        | accepted => exact absurd rfl hstatus
        | _ => rfl
  | post hlen hdecode hsend =>
    obtain ⟨hitems, hcapacity⟩ := BoundedQueue.of_trySend hsend
    exact sv.arrive hlen hdecode hitems hcapacity rfl rfl rfl
  | place hitems hcapacity => exact sv.quiet rfl rfl hitems hcapacity rfl rfl rfl rfl
  | radio hlen hdecode hsend =>
    obtain ⟨hitems, hcapacity⟩ := BoundedQueue.of_send hsend
    exact sv.arrive hlen hdecode hitems hcapacity rfl rfl rfl
  | recv hrecv hstep =>
    obtain ⟨hitems, hcapacity⟩ := BoundedQueue.of_recv hrecv
    exact sv.run hstep hitems hcapacity (fun result heq => ⟨heq, by simp⟩) (by simp)
  | @pipeline e _ _ hown hstep =>
    have hnone : ∀ r, e = .sink r → s.delivering = none := by
      rintro r rfl
      exact Option.isNone_iff_eq_none.mp hown
    have hingress : e.ingress? = none := by
      cases e with
      | ingress message => exact absurd hown (by simp [EdgeApp.isOwn])
      | _ => rfl
    refine sv.run hstep (by rw [hingress]; rfl) rfl (fun result heq => ⟨heq, fun r hr => ?_⟩) ?_
    · obtain ⟨v, hv, -⟩ := sv.answering result heq
      exact absurd ((hnone r hr).symm.trans hv) (by simp)
    · exact fun _ v heq hv => absurd ((hnone _ heq).symm.trans hv) (by simp)
  | @pushFailed error hdelivering =>
    obtain ⟨v, hv⟩ := Option.isSome_iff_exists.mp hdelivering
    rw [List.append_nil]
    exact { sv with answering := fun result heq => ⟨v, hv, fun hok => by
      rw [hok] at heq
      exact absurd heq (by simp)⟩ }
  | @push v stored tables hdelivering hdeliver =>
    have hin : InStore (h ++ [.store (.pushed stored)]) (v.accepted sha256) := by
      unfold deliver at hdeliver
      split at hdeliver
      · exact absurd hdeliver (by simp)
      · next sequence store hpush =>
        obtain ⟨rfl, rfl⟩ := Prod.mk.inj (Except.ok.inj hdeliver)
        refine ⟨⟨sequence, v.message.receivedAt, v.message.rawEnvelope⟩, ?_, rfl, rfl⟩
        rw [storePart_append, Batcher.pushes_append]
        exact List.mem_append_right _ List.mem_cons_self
    have hq : Serving codecs verify sha256 (h ++ [.store (.pushed stored)])
        { s with gateway := { s.gateway with tables } } :=
      sv.quiet rfl rfl rfl rfl rfl rfl rfl rfl
    exact { hq with answering := fun result _ => ⟨v, hdelivering, fun _ => hin⟩ }
  | answer hanswer hstep =>
    refine sv.run hstep rfl rfl (fun result heq => absurd heq (by simp)) fun _ v heq hv => ?_
    obtain ⟨v', hv', hin⟩ := sv.answering _ hanswer
    obtain rfl := Option.some.inj (hv.symm.trans hv')
    exact hin (Pipeline.Event.sink.inj heq)
  | plan => exact sv.quiet rfl rfl rfl rfl rfl (by simp) (by simp) (by simp [Edge.acknowledged])
  | commit => exact sv.quiet rfl rfl rfl rfl rfl (by simp) (by simp) (by simp [Edge.acknowledged])
  | anchor => exact sv.quiet rfl rfl rfl rfl rfl (by simp) (by simp) (by simp [Edge.acknowledged])
  | restart => exact absurd (hsession _ (List.mem_cons_of_mem _ List.mem_cons_self)) (by
      simp [Observation.started?])

end Serving

end Edge
end Robins
