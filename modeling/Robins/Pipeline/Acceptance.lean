import Robins.Pipeline.Tracking

/-!
# Acceptance is safe

Every run of the pipeline, with any messages, any answers of the policy, any order of finished
lookups, any failures of sinks and shutdown at any point.

## Safety

`Tracked` is kept by each step (`Tracked.step`), and what it says of the history is the guarantee:
whatever is handed to a sink was verified and allowed, each message taken is settled once or is
still inside, and a message is settled as a duplicate only of one that the required sinks took.

## Nothing is stuck

A step needs something to act on: a message to handle, a sink to deliver to, a lookup that frees a
place in a stage that is full.  `State.Ready` says that it is there, and is an invariant; the last
one is where the stage's account comes in, by which parked messages always have a lookup running
(`Tracked.resolve_isSome`).  So as long as there are messages inside a step can be taken
(`Tracked.goes_on`), and without a shutdown the pipeline stops only when there are none.
-/

namespace Robins
namespace Pipeline

open Protocol Auth WaitingRoom

variable {verify : Ed25519Verify} {sha256 : Sha256} {sinks : List Sink} {h : List Observation}
  {s : State} {room : List Verified}

/-! ## Runs -/

theorem Tracked.at (t : Tracked verify sha256 sinks h s room) {c : Control}
    (hcontrol : s.control = c) : Tracked verify sha256 sinks h { s with control := c } room := by
  subst hcontrol
  exact t

theorem Tracked.step (t : Tracked verify sha256 sinks h s room) {e : Event} {s' : State}
    {o : List Observation} (hmove : Move verify sha256 s e s' o) :
    ∃ room', Tracked verify sha256 sinks (h ++ o) s' room' := by
  cases hmove with
  | requestShutdown =>
    rw [List.append_nil]
    exact ⟨room, t.requestShutdown⟩
  | stop hcontrol hshutdown =>
    rw [List.append_nil]
    exact ⟨room, (t.at hcontrol).move (.refl _) trivial rfl rfl
      fun _ hoff => absurd (hshutdown.symm.trans hoff) (by simp)⟩
  | resolve hcontrol hresolve =>
    rcases hcontrol with ⟨hcontrol, rfl⟩ | ⟨v, hcontrol, rfl⟩
    · exact t.resolve (by rw [hcontrol]; rfl) (by rw [hcontrol]; rfl) hresolve
    · exact t.resolve (by rw [hcontrol]; rfl) (by rw [hcontrol]; rfl) hresolve
  | reject hcontrol herror => exact ⟨room, ((t.at hcontrol).reject herror).loop rfl rfl⟩
  | take hcontrol hverified => exact ⟨room, (t.at hcontrol).take rfl rfl hverified⟩
  | close hcontrol =>
    rw [List.append_nil]
    exact ⟨room, Tracked.loop (s := { s with ingressOpen := false }) (c := .select)
      ⟨t.sinks_eq, t.holds, (t.at hcontrol).balance, (t.at hcontrol).genuine, trivial,
        (t.at hcontrol).suppressed, t.explained, (t.at hcontrol).calm, by simp⟩ rfl rfl⟩
  | admission hcontrol hadmission => exact (t.at hcontrol).admission _ _ hadmission
  | abandon hcontrol hshutdown =>
    have ht := (t.at hcontrol).settle (c := .select) s.pipeline.dedup
      .abandoned (.refl _) trivial trivial rfl
      (fun id hid => ⟨hid, fun hf => absurd hf (by simp [Control.flying, Control.delivery?])⟩)
      (fun _ => hshutdown) (by simp)
    exact ⟨room, ht.loop rfl rfl⟩
  | handle hcontrol => exact ⟨room, (t.at hcontrol).decide _⟩
  | failed hcontrol hsink hrequired =>
    refine ⟨room, ((t.at hcontrol).handed _).onward (.inl rfl) (.inr rfl) rfl rfl ?_
      fun _ hc => hc⟩
    exact (((t.at hcontrol).handed _).knows : Delivery.Underway ..).taken
  | @passed _ _ result hcontrol hsink hdone =>
    have ht := ((t.at hcontrol).handed result).advance hsink fun hreq =>
      List.mem_append_right _ (List.mem_singleton.mpr (by rw [hdone hreq]))
    rw [List.append_assoc] at ht
    exact ⟨room, ht⟩
  | slept hcontrol =>
    rw [List.append_nil]
    exact ⟨room, (t.at hcontrol).onward (.inr rfl) (.inl rfl) rfl rfl
      ((t.at hcontrol).knows : Delivery.Underway ..).taken fun _ hc => hc⟩
  | giveUp hcontrol hshutdown =>
    refine ⟨room, Tracked.fanOut ((t.at hcontrol).onward (.inr rfl) (.inl rfl) rfl rfl ?_ ?_)⟩
    · exact fun hc => absurd hc (by simp [Delivery.advance])
    · exact fun hoff => absurd (hshutdown.symm.trans hoff) (by simp)

/-! ## The pipeline is never stuck -/

/-- What the control waits for exists: a message to handle, a sink to deliver to, a
lookup that frees a place in a full stage. -/
def State.Ready (s : State) : Prop :=
  match s.control with
  | .resolving rest => rest.messages ≠ []
  | .delivering delivery | .backoff delivery => delivery.index < s.pipeline.sinks.length
  | .held _ => 0 < s.stage.pending
  | _ => True

theorem ready_loop (s : State) : s.loop.Ready := by
  unfold State.Ready State.loop
  dsimp only
  split_ifs <;> trivial

theorem ready_proceed (s : State) (rest : Remaining) : (s.proceed rest).Ready := by
  obtain ⟨decision, messages, held⟩ := rest
  cases messages with
  | cons v messages => exact List.cons_ne_nil v messages
  | nil =>
    cases held with
    | none => exact ready_loop s
    | some v => trivial

theorem ready_fanOut (s : State) (d : Delivery) : (s.fanOut sha256 d).1.Ready := by
  unfold State.fanOut
  dsimp only
  split_ifs with hindex
  · exact hindex
  · exact ready_proceed ..
  · exact ready_proceed ..

theorem ready_decide (s : State) (now : Instant) (v : Verified) (rest : Remaining) :
    (s.decide sha256 now v rest).1.Ready := by
  unfold State.decide State.accept
  dsimp only
  split
  · split_ifs
    · exact ready_fanOut ..
    · exact ready_proceed ..
  · exact ready_proceed ..
  · exact ready_proceed ..

theorem Tracked.ready_step (t : Tracked verify sha256 sinks h s room) (hready : s.Ready) {e : Event}
    {s' : State} {o : List Observation} (hmove : Move verify sha256 s e s' o) : s'.Ready := by
  cases hmove with
  | requestShutdown => exact hready
  | stop hcontrol hshutdown => trivial
  | resolve hcontrol hresolve =>
    obtain ⟨⟨sensorId, _⟩, -, hresolve⟩ := Option.bind_eq_some_iff.mp hresolve
    obtain ⟨⟨resolution, stage⟩, -, hresolve⟩ := Option.bind_eq_some_iff.mp hresolve
    obtain ⟨rfl, -⟩ := Prod.mk.inj (Option.some.inj hresolve)
    exact ready_proceed ..
  | reject hcontrol herror => exact ready_loop s
  | take hcontrol hverified => trivial
  | close hcontrol => exact ready_loop _
  | @admission v _ _ _ stage hcontrol hadmission =>
    rcases t.holds.admission _ _ _ hadmission with
      ⟨allowed, -, rfl, -⟩ | ⟨-, rfl, rfl, hpos⟩ | ⟨-, rfl, -, -⟩
    · exact ready_proceed { s with stage } ⟨.ok allowed, [v], none⟩
    · exact hpos
    · exact ready_loop _
  | abandon hcontrol hshutdown => exact ready_loop s
  | handle hcontrol => exact ready_decide ..
  | failed hcontrol hsink hrequired => exact (List.getElem?_eq_some_iff.mp hsink).1
  | passed hcontrol hsink hdone => exact ready_fanOut ..
  | slept hcontrol =>
    rw [State.Ready, hcontrol] at hready
    exact hready
  | giveUp hcontrol hshutdown => exact ready_fanOut ..

/-- The messages in the pipeline: parked in the stage, or in the hands of the
control. -/
def State.inside (s : State) : List IngressMessage :=
  (s.stage.parked.entries.flatMap Sigma.snd ++ s.control.pending).map Verified.message

theorem Tracked.inside_perm (t : Tracked verify sha256 sinks h s room) :
    s.inside.Perm ((room ++ s.control.pending).map Verified.message) :=
  (t.holds.groups.flatMap_perm.append_right _).map _

/-- With messages parked a lookup can finish. -/
theorem Tracked.resolve_isSome (t : Tracked verify sha256 sinks h s room)
    (hpos : 0 < s.stage.pending) (held : Option Verified) :
    ∃ id, (s.resolve .counting id (.finished (.ok true)) held).isSome := by
  obtain ⟨id, sensorId, hid⟩ := t.holds.running_of_pending hpos
  obtain ⟨stage', hnext, -, -⟩ := t.holds.nextResolution .counting hid (.finished (.ok true))
  refine ⟨id, ?_⟩
  simp [State.resolve, t.holds.join hid, hnext]

theorem Tracked.goes_on (t : Tracked verify sha256 sinks h s room) (hready : s.Ready)
    (hinside : s.inside ≠ []) (hcontrol : s.control ≠ .stopped) :
    ∃ e, e ≠ .requestShutdown ∧ e ≠ .stop ∧ (pipelineStep verify sha256 s e).isSome := by
  cases hc : s.control with
  | select =>
    have hroom : room ≠ [] := by
      rintro rfl
      have hnil := t.inside_perm
      rw [hc] at hnil
      exact hinside (List.perm_nil.mp hnil)
    have hpos : 0 < s.stage.pending := by
      rw [t.holds.pending_eq]
      exact List.length_pos_iff.mpr hroom
    obtain ⟨id, hsome⟩ := t.resolve_isSome hpos none
    refine ⟨.lookupDone .counting id (.finished (.ok true)), by simp, by simp, ?_⟩
    have hbusy : s.stage.isBusy = true := decide_eq_true hpos
    simp only [pipelineStep, hc, hbusy]
    exact hsome
  | admitting v =>
    exact ⟨.admission .counting none, by simp, by simp, by simp [pipelineStep, hc]⟩
  | held v =>
    rw [State.Ready, hc] at hready
    obtain ⟨id, hsome⟩ := t.resolve_isSome hready (some v)
    refine ⟨.lookupDone .counting id (.finished (.ok true)), by simp, by simp, ?_⟩
    simp only [pipelineStep, hc]
    exact hsome
  | resolving rest =>
    rw [State.Ready, hc] at hready
    obtain ⟨v, messages, hmessages⟩ := List.exists_cons_of_ne_nil hready
    exact ⟨.handle 0, by simp, by simp, by simp [pipelineStep, hc, hmessages]⟩
  | delivering d =>
    rw [State.Ready, hc] at hready
    refine ⟨.sink (.ok ()), by simp, by simp, ?_⟩
    simp [pipelineStep, hc, List.getElem?_eq_getElem hready]
  | backoff d => exact ⟨.slept, by simp, by simp, by simp [pipelineStep, hc]⟩
  | stopped => exact absurd hc hcontrol

/-! ## The guarantee -/

/-- What a run of the pipeline guarantees.  `explained` says of every hand-off to a
sink that the message was verified and allowed, and of every outcome why it came
about; in particular a duplicate has been taken by every required sink before. -/
structure AcceptanceSafe (verify : Ed25519Verify) (sha256 : Sha256) (sinks : List Sink) (s : State)
    (h : List Observation) : Prop where
  explained : EventMachine.Justified (Explained verify sha256 sinks) h
  /-- A message taken from the channel has one outcome or is in the pipeline. -/
  settled : (taken h).Perm ((outcomes h).map Prod.fst ++ s.inside)
  /-- Before shutdown no message is given up. -/
  kept : s.shutdown = false → ∀ p ∈ outcomes h, p.2 ≠ .abandoned
  /-- Before shutdown the pipeline stops only when it is empty. -/
  drained : s.shutdown = false → s.control = .stopped → s.inside = []
  /-- As long as it has messages it can go on. -/
  live : s.inside ≠ [] → s.control ≠ .stopped →
    ∃ e, e ≠ .requestShutdown ∧ e ≠ .stop ∧ (pipelineStep verify sha256 s e).isSome

/-- **Acceptance is safe.**  Of a pipeline with an empty duplicate cache, after any events:
whatever a sink was handed was verified and allowed, and every outcome has its reason; each
message taken from the channel is settled once or is inside; before the shutdown none is given
up, and the pipeline stops only when it is empty; and as long as it is not, it can go on. -/
theorem acceptance_safe (verify : Ed25519Verify) (sha256 : Sha256) (limits : AuthLimits)
    (capacity : ℕ) (ttl : Duration) (sinks : List Sink) (retry : Duration × Duration)
    (es : List Event) (s : State) (h : List Observation)
    (hrun : (pipelineMachine verify sha256).exec
      (.start ⟨limits, .new capacity ttl, sinks, retry⟩) es = some (s, h)) :
    AcceptanceSafe verify sha256 sinks s h := by
  have hall : ∃ room, Tracked verify sha256 sinks h s room ∧ s.Ready :=
    EventMachine.exec_induction
      (P := fun _ h s => ∃ room, Tracked verify sha256 sinks h s room ∧ s.Ready)
      ⟨[], .start rfl rfl, trivial⟩ (fun _ _ _ _ _ _ _ ⟨_, t, hready⟩ hstep => by
        have hmove := move_of_pipelineStep hstep
        obtain ⟨room', t'⟩ := t.step hmove
        exact ⟨room', t', t.ready_step hready hmove⟩) hrun
  obtain ⟨room, t, hready⟩ := hall
  refine ⟨t.explained, t.balance.trans (t.inside_perm.symm.append_left _),
    fun hoff => (t.calm hoff).1, fun hoff hstop => ?_, t.goes_on hready⟩
  have hroom : room = [] := by
    have hpending := t.drained hstop hoff
    rw [t.holds.pending_eq] at hpending
    exact List.eq_nil_of_length_eq_zero hpending
  have hperm := t.inside_perm
  rw [hroom, hstop] at hperm
  exact List.perm_nil.mp hperm

/-! A sensor's reading, sent twice. -/

def readingKey : FixedBytes sensorIdLen :=
  ⟨[138, 136, 227, 221, 116, 9, 241, 149, 253, 82, 219, 45, 60, 186, 93, 114, 202, 103, 9, 191, 29,
    148, 18, 27, 243, 116, 136, 1, 180, 15, 111, 92], rfl⟩

def readingSignature : FixedBytes signatureLen :=
  ⟨[90, 19, 192, 138, 25, 12, 161, 232, 33, 68, 101, 129, 183, 143, 31, 112, 199, 124, 144, 127,
    142, 119, 121, 63, 196, 52, 11, 136, 75, 167, 164, 213, 45, 104, 195, 30, 142, 6, 133, 204, 239,
    166, 81, 105, 6, 109, 77, 104, 165, 226, 151, 225, 185, 4, 111, 0, 166, 252, 81, 66, 113, 134,
    8, 0], rfl⟩

def reading : SignedEnvelope := ⟨readingKey.1, List.replicate 16 0, [42], readingSignature.1⟩

/-- The reading on the wire. -/
def rawReading : Bytes :=
  10 :: 32 :: readingKey.1 ++ 18 :: 16 :: List.replicate 16 0 ++ 26 :: 1 :: 42 ::
    34 :: 64 :: readingSignature.1

/-- The digest of `rawReading`. -/
def readingDigest : FixedBytes 32 :=
  ⟨[222, 112, 139, 21, 228, 191, 182, 206, 11, 229, 167, 73, 201, 82, 176, 169, 191, 15, 246, 122,
    211, 209, 186, 83, 148, 124, 254, 88, 28, 173, 23, 135], rfl⟩

/-- Ed25519 on the one signature made with the key. -/
def verifyReading : Ed25519Verify := fun signature payload key =>
  signature = readingSignature ∧ payload = signingPayload reading ∧ key = readingKey

def readingMessage : IngressMessage := ⟨reading, rawReading, ⟨.http, none⟩, ⟨0⟩⟩

/-- The reading is parked until its lookup allows it, the durable sink fails once,
the live sink is closed; then it comes again. -/
def sentTwice : List Event :=
  [.ingress readingMessage, .admission .counting none,
    .lookupDone .counting 1 (.finished (.ok true)), .handle 0,
    .sink (.error (.delivery "batch" "disk full")), .slept, .sink (.ok ()),
    .sink (.error (.closed "gossip")), .ingress readingMessage,
    .admission .counting (some true), .handle 1000]

theorem acceptance_safe_sentTwice :
    ∃ s h, (pipelineMachine verifyReading fun _ => readingDigest).exec
        (.start ⟨.default, .new 16 5000, [⟨"batch", true⟩, ⟨"gossip", false⟩], (100, 5000)⟩)
        sentTwice = some (s, h) ∧
      outcomes h = [(readingMessage, .accepted), (readingMessage, .duplicate ⟨readingDigest⟩)] ∧
      AcceptanceSafe verifyReading (fun _ => readingDigest) [⟨"batch", true⟩, ⟨"gossip", false⟩] s
        h := by
  have houtcomes : ((pipelineMachine verifyReading fun _ => readingDigest).exec
      (.start ⟨.default, .new 16 5000, [⟨"batch", true⟩, ⟨"gossip", false⟩], (100, 5000)⟩)
      sentTwice).map (fun state => outcomes state.2) =
        some [(readingMessage, .accepted), (readingMessage, .duplicate ⟨readingDigest⟩)] := by
    decide +kernel
  obtain ⟨⟨s, h⟩, hrun, hh⟩ := Option.map_eq_some_iff.mp houtcomes
  exact ⟨s, h, hrun, hh, acceptance_safe _ _ _ _ _ _ _ sentTwice s h hrun⟩

end Pipeline
end Robins
