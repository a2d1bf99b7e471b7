import Robins.Pipeline.Replay

/-!
# The order of a sensor's messages

A message waits in the stage for the lookup of its sensor, unless its decision is known when it is
admitted; then it goes on at once.  The lookup runs in a task of its own, and a policy with a cache
knows the decision as soon as the task has made it, which is before the stage returns the messages
that waited for it.  A message admitted in between overtakes them.

## The line

In a run without such an overtaking the messages of one sensor stand in one line from the channel
to each sink: those delivered, those in the hands of the control, those parked, and the one that is
being admitted.  A step moves the line on or takes a message out of it, and never changes its order
(`InOrder`).

Most steps concern the two ends: a message joins at the back (`take`), or leaves at the front as
delivered, settled or given up (`deliver`, `decide`).  Only two move messages within it.  A finished
lookup brings the messages of its sensor from the room to the front, past those of other sensors but
not past their own (`resolve`).  And an admitted message takes its place behind those parked, or
goes past them, which is harmless when none of them is of its sensor (`admission`).
-/

namespace Robins
namespace Pipeline

open Protocol Auth WaitingRoom

/-! ## What a run received and delivered -/

/-- The verified message a step took from the channel. -/
def Observation.received? (verify : Ed25519Verify) : Observation → Option Verified
  | .took message =>
    match verifyEnvelope verify message.envelope with
    | .ok verified => some ⟨message, verified⟩
    | .error _ => none
  | _ => none

/-- The message a step delivered to a sink. -/
def Observation.deliveredTo? (sink : ℕ) : Observation → Option AcceptedMessage
  | .handed index message (.ok ()) => if index = sink then some message else none
  | _ => none

section

variable (verify : Ed25519Verify) (sha256 : Sha256) (sink : ℕ)

/-- The verified messages taken from the channel, as a sink would get them. -/
def received (h : List Observation) : List AcceptedMessage :=
  (h.filterMap (Observation.received? verify)).map (Verified.accepted sha256)

/-- The messages a sink took. -/
def delivered (h : List Observation) : List AcceptedMessage :=
  h.filterMap (Observation.deliveredTo? sink)

/-- The messages of one sensor among them. -/
def ofSensor (sensor : SensorId) (messages : List AcceptedMessage) : List AcceptedMessage :=
  ofKey AcceptedMessage.sensorId sensor messages

theorem received_append (h k : List Observation) :
    received verify sha256 (h ++ k) = received verify sha256 h ++ received verify sha256 k := by
  rw [received, List.filterMap_append, List.map_append]
  rfl

theorem delivered_append (h k : List Observation) :
    delivered sink (h ++ k) = delivered sink h ++ delivered sink k := List.filterMap_append

end

/-! ## The step that breaks the order -/

/-- The message that is being admitted. -/
def Control.admitting? : Control → Option Verified
  | .admitting message => some message
  | _ => none

/-- The policy allows a message at once. -/
def Event.allowsAtOnce : Event → Bool
  | .admission _ known => known = some true
  | _ => false

/-- A message is allowed at once while messages of its sensor are parked. -/
def Overtakes (s : State) (e : Event) : Prop :=
  e.allowsAtOnce = true ∧ ∃ v ∈ s.control.admitting?, v.sensor ∈ s.stage.parked

instance (s : State) (e : Event) : Decidable (Overtakes s e) :=
  inferInstanceAs (Decidable (_ ∧ ∃ v ∈ s.control.admitting?, _))

/-! ## The line -/

/-- The messages of a resolution that will go on. -/
def Remaining.allowed (rest : Remaining) : List Verified :=
  match rest.decision with
  | .ok true => rest.messages
  | _ => []

/-- The messages before those parked: the one under delivery, until it has passed the sink,
and what is left of its resolution. -/
def Control.ahead (sink : ℕ) : Control → List Verified
  | .resolving rest => rest.allowed
  | .delivering d | .backoff d => (if d.index ≤ sink then [d.message] else []) ++ d.rest.allowed
  | _ => []

/-- The message after those parked. -/
def Control.behind : Control → List Verified
  | .admitting message | .held message => [message]
  | .resolving rest => rest.held.toList
  | .delivering d | .backoff d => d.rest.held.toList
  | _ => []

/-- Everything that is on its way to a sink or was delivered to it, first come first. -/
def line (sha256 : Sha256) (sink : ℕ) (h : List Observation) (c : Control)
    (room : List Verified) : List AcceptedMessage :=
  delivered sink h ++ (c.ahead sink ++ room ++ c.behind).map (Verified.accepted sha256)

section

variable {sha256 : Sha256} {sink : ℕ} {s : State} {d : Delivery}

@[simp] theorem ahead_loop (s : State) : s.loop.control.ahead sink = [] := by
  unfold State.loop
  dsimp only
  split_ifs <;> rfl

@[simp] theorem behind_loop (s : State) : s.loop.control.behind = [] := by
  unfold State.loop
  dsimp only
  split_ifs <;> rfl

theorem ahead_proceed (s : State) (rest : Remaining) :
    (s.proceed rest).control.ahead sink = rest.allowed := by
  obtain ⟨decision, messages, held⟩ := rest
  cases messages with
  | cons v messages => rfl
  | nil =>
    have hnil : Remaining.allowed ⟨decision, [], held⟩ = [] := by
      unfold Remaining.allowed
      split <;> rfl
    rw [hnil]
    cases held with
    | none => exact ahead_loop s
    | some v => rfl

theorem behind_proceed (s : State) (rest : Remaining) :
    (s.proceed rest).control.behind = rest.held.toList := by
  obtain ⟨decision, messages, held⟩ := rest
  cases messages with
  | cons v messages => rfl
  | nil =>
    cases held with
    | none => exact behind_loop s
    | some v => rfl

@[simp] theorem stage_proceed (s : State) (rest : Remaining) :
    (s.proceed rest).stage = s.stage := by
  unfold State.proceed
  split <;> rfl

theorem ahead_fanOut_sublist (s : State) (d : Delivery) :
    ((s.fanOut sha256 d).1.control.ahead sink).Sublist ((Control.delivering d).ahead sink) := by
  unfold State.fanOut
  dsimp only
  split_ifs
  · exact .refl _
  · rw [ahead_proceed]
    exact List.sublist_append_right _ _
  · rw [ahead_proceed]
    exact List.sublist_append_right _ _

/-- Once past a sink a message is past it. -/
theorem ahead_advance_sublist (d : Delivery) (p : Pipeline) :
    ((Control.delivering (d.advance p)).ahead sink).Sublist
      ((Control.delivering d).ahead sink) := by
  refine List.Sublist.append_right ?_ _
  show (if d.index + 1 ≤ sink then [d.message] else []).Sublist
    (if d.index ≤ sink then [d.message] else [])
  split_ifs with hnext hindex
  · exact .refl _
  · omega
  · exact List.nil_sublist _
  · exact .refl _

theorem behind_fanOut (s : State) (d : Delivery) :
    (s.fanOut sha256 d).1.control.behind = d.rest.held.toList := by
  unfold State.fanOut
  dsimp only
  split_ifs
  · rfl
  · exact behind_proceed ..
  · exact behind_proceed ..

@[simp] theorem stage_fanOut (s : State) (d : Delivery) :
    (s.fanOut sha256 d).1.stage = s.stage := by
  unfold State.fanOut
  dsimp only
  split_ifs
  · rfl
  · rw [stage_proceed]
  · rw [stage_proceed]

/-- Going on with a delivery takes no message from the channel. -/
theorem received_fanOut (verify : Ed25519Verify) (s : State) (d : Delivery) :
    received verify sha256 (s.fanOut sha256 d).2 = [] := by
  unfold State.fanOut
  dsimp only
  split_ifs <;> rfl

variable (sink) in
theorem delivered_fanOut (s : State) (d : Delivery) :
    delivered sink (s.fanOut sha256 d).2 = [] := by
  unfold State.fanOut
  dsimp only
  split_ifs <;> rfl

end

theorem ofSensor_line (sha256 : Sha256) (sink : ℕ) (h : List Observation) (c : Control)
    (room : List Verified) (sensor : SensorId) :
    ofSensor sensor (line sha256 sink h c room) = ofSensor sensor (delivered sink h) ++
      (ofKey Verified.sensor sensor (c.ahead sink ++ room ++ c.behind)).map
        (Verified.accepted sha256) := by
  rw [ofSensor, line, ofKey_append]
  refine congrArg _ ?_
  rw [ofKey, List.filter_map]
  rfl

/-! ## The invariant

One lemma for each way a step may change the line, with the rest of the state left open: what
joins at the end, what leaves at the front, what is rearranged without a change for any one
sensor.  The moves of the pipeline are instances of these. -/

/-- The stage holds a room, and of every sensor the line is in the order in which its
messages were received. -/
structure InOrder (verify : Ed25519Verify) (sha256 : Sha256) (sink : ℕ) (h : List Observation)
    (s : State) (room : List Verified) : Prop where
  holds : s.stage.Holds room
  ordered : ∀ sensor, (ofSensor sensor (line sha256 sink h s.control room)).Sublist
    (ofSensor sensor (received verify sha256 h))

namespace InOrder

variable {verify : Ed25519Verify} {sha256 : Sha256} {sink : ℕ} {h o : List Observation}
  {s s' : State} {room : List Verified}

/-- A step that takes nothing from the channel, and messages out of the line at most. -/
theorem shrink (i : InOrder verify sha256 sink h s room) (hstage : s'.stage = s.stage)
    (hreceived : received verify sha256 o = [])
    (hline : (line sha256 sink (h ++ o) s'.control room).Sublist
      (line sha256 sink h s.control room)) :
    InOrder verify sha256 sink (h ++ o) s' room where
  holds := hstage ▸ i.holds
  ordered sensor := by
    rw [received_append, hreceived, List.append_nil]
    exact (hline.filter _).trans (i.ordered sensor)

/-- A step that shows nothing and keeps the messages of each sensor in line. -/
theorem rearrange (i : InOrder verify sha256 sink h s room) {room' : List Verified}
    (hholds : s'.stage.Holds room') (hreceived : received verify sha256 o = [])
    (hdelivered : delivered sink o = [])
    (hline : ∀ sensor,
      (ofKey Verified.sensor sensor (s'.control.ahead sink ++ room' ++ s'.control.behind)).Sublist
        (ofKey Verified.sensor sensor (s.control.ahead sink ++ room ++ s.control.behind))) :
    InOrder verify sha256 sink (h ++ o) s' room' where
  holds := hholds
  ordered sensor := by
    have hold := i.ordered sensor
    rw [ofSensor_line] at hold ⊢
    rw [received_append, hreceived, List.append_nil, delivered_append, hdelivered,
      List.append_nil]
    exact (((hline sensor).map _).append_left _).trans hold

/-- A step that shows no delivery, and leaves the front of the line and its end. -/
theorem quiet (i : InOrder verify sha256 sink h s room) (hstage : s'.stage = s.stage)
    (hreceived : received verify sha256 o = []) (hdelivered : delivered sink o = [])
    (hahead : (s'.control.ahead sink).Sublist (s.control.ahead sink))
    (hbehind : s'.control.behind.Sublist s.control.behind) :
    InOrder verify sha256 sink (h ++ o) s' room :=
  i.rearrange (hstage ▸ i.holds) hreceived hdelivered fun _ =>
    ((hahead.append_right room).append hbehind).filter _

/-- A message is taken from the channel and joins the end of the line. -/
theorem take (i : InOrder verify sha256 sink h s room) (hcontrol : s.control = .select)
    {message : IngressMessage} {verified : VerifiedEnvelope}
    (hverified : verifyEnvelope verify message.envelope = .ok verified) :
    InOrder verify sha256 sink (h ++ [.took message])
      { s with control := .admitting ⟨message, verified⟩ } room where
  holds := i.holds
  ordered sensor := by
    have hreceived : received verify sha256 [.took message] =
        [Verified.accepted sha256 ⟨message, verified⟩] := by
      simp [received, Observation.received?, hverified]
    have hline : line sha256 sink (h ++ [.took message]) (.admitting ⟨message, verified⟩) room =
        line sha256 sink h .select room ++ [Verified.accepted sha256 ⟨message, verified⟩] := by
      simp [line, delivered, Observation.deliveredTo?, Control.ahead,
        Control.behind]
    have hold := i.ordered sensor
    rw [hcontrol] at hold
    show (ofSensor sensor (line sha256 sink (h ++ [.took message])
      (.admitting ⟨message, verified⟩) room)).Sublist _
    rw [hline, received_append, hreceived, ofSensor, ofSensor, ofKey_append, ofKey_append]
    exact hold.append_right _

/-- The messages of a finished lookup are the first of their sensor. -/
theorem resolve (i : InOrder verify sha256 sink h s room) {held : Option Verified}
    (hahead : s.control.ahead sink = []) (hbehind : s.control.behind = held.toList)
    {ids : TaskIds} {id : TaskId} {taskEnd : TaskEnd}
    (hresolve : s.resolve ids id taskEnd held = some (s', o)) :
    ∃ room', InOrder verify sha256 sink (h ++ o) s' room' := by
  cases hid : s.stage.running.lookup id with
  | none => simp [State.resolve, AuthStage.join, hid] at hresolve
  | some sensorId =>
    obtain ⟨stage', hnext, -, hholds⟩ := i.holds.nextResolution ids hid taskEnd
    have hjoin := i.holds.join hid taskEnd
    simp only [State.resolve, hjoin, hnext, Option.bind_eq_bind, Option.bind_some] at hresolve
    obtain ⟨rfl, rfl⟩ := Prod.mk.inj (Option.some.inj hresolve)
    refine ⟨others Verified.sensor sensorId room, i.rearrange ?_ rfl rfl fun sensor => ?_⟩
    · rw [stage_proceed]
      exact hholds
    · have hallowed : (Remaining.allowed ⟨taskEnd.decision, ofKey Verified.sensor sensorId room,
          held⟩).Sublist (ofKey Verified.sensor sensorId room) := by
        unfold Remaining.allowed
        split
        · exact .refl _
        · exact List.nil_sublist _
      have hfront := (ofKey_append_others_sublist hallowed sensor).append_right
        (ofKey Verified.sensor sensor held.toList)
      rw [← ofKey_append, ← ofKey_append] at hfront
      rw [ahead_proceed, behind_proceed, hahead, hbehind, List.nil_append]
      exact hfront

/-- The front of the line when a message is decided, and the messages that leave it. -/
theorem decide (i : InOrder verify sha256 sink h s room) {v : Verified} {rest : Remaining}
    (hcontrol : s.control = .resolving { rest with messages := v :: rest.messages })
    (now : Instant) :
    InOrder verify sha256 sink (h ++ (s.decide sha256 now v rest).2)
      (s.decide sha256 now v rest).1 room := by
  obtain ⟨decision, messages, held⟩ := rest
  have hbehind : s.control.behind = held.toList := by
    rw [hcontrol]
    rfl
  unfold State.decide
  dsimp only
  split
  · have hahead : s.control.ahead sink = v :: messages := by
      rw [hcontrol]
      rfl
    unfold State.accept
    dsimp only
    split_ifs
    · refine i.quiet (stage_fanOut _ _) (received_fanOut verify _ _) (delivered_fanOut sink _ _)
        ((ahead_fanOut_sublist _ _).trans ?_) ?_
      · rw [hahead]
        exact .refl _
      · rw [behind_fanOut, hbehind]
    · refine i.quiet (stage_proceed _ _) rfl rfl ?_ ?_
      · rw [ahead_proceed, hahead]
        exact List.sublist_cons_self v messages
      · rw [behind_proceed, hbehind]
  · exact i.quiet (stage_proceed _ _) rfl rfl (by rw [ahead_proceed]; exact List.nil_sublist _)
      (by rw [behind_proceed, hbehind])
  · exact i.quiet (stage_proceed _ _) rfl rfl (by rw [ahead_proceed]; exact List.nil_sublist _)
      (by rw [behind_proceed, hbehind])

/-- A message that is admitted takes its place in the stage, stays at the end of the line,
or goes on at once, which it may when no message of its sensor is parked. -/
theorem admission (i : InOrder verify sha256 sink h s room) {v : Verified}
    (hcontrol : s.control = .admitting v) {ids : TaskIds} {known : Option Bool}
    {admission : Admission} {stage : AuthStage}
    (hkeep : ¬ Overtakes s (.admission ids known))
    (hadmission : s.stage.admitMessage ids known v = (admission, stage)) :
    ∃ room', InOrder verify sha256 sink (h ++ [.tried v known]) (s.afterAdmission stage admission)
      room' := by
  have hahead : s.control.ahead sink = [] := by
    rw [hcontrol]
    rfl
  have hbehind : s.control.behind = [v] := by
    rw [hcontrol]
    rfl
  rcases i.holds.admission ids known v hadmission with
    ⟨allowed, rfl, rfl, rfl⟩ | ⟨-, rfl, rfl, -⟩ | ⟨-, rfl, -, hholds⟩
  · have hfirst : (ofKey Verified.sensor v.sensor
        (Remaining.allowed ⟨.ok allowed, [v], none⟩ ++ room)).Sublist
          (ofKey Verified.sensor v.sensor (room ++ [v])) := by
      cases allowed with
      | false => exact (List.sublist_append_left room [v]).filter _
      | true =>
        have hnone : ofKey Verified.sensor v.sensor room = [] := ofKey_eq_nil fun a ha hsensor =>
          hkeep ⟨rfl, v, by rw [hcontrol]; rfl, AList.mem_keys.mpr
            (i.holds.groups.mem_keys_iff.mpr ⟨a, ha, hsensor⟩)⟩
        show (ofKey Verified.sensor v.sensor ([v] ++ room)).Sublist _
        rw [ofKey_append, ofKey_append, hnone, List.nil_append, List.append_nil]
    refine ⟨room, i.rearrange ?_ rfl rfl fun sensor => ?_⟩
    · rw [State.afterAdmission, stage_proceed]
      exact i.holds
    · rw [State.afterAdmission, ahead_proceed, behind_proceed, hahead, hbehind, List.nil_append,
        Option.toList_none, List.append_nil]
      by_cases hsensor : v.sensor = sensor
      · subst hsensor
        exact hfirst
      · -- of another sensor nothing changes
        have hother : ofKey Verified.sensor sensor
            (Remaining.allowed ⟨.ok allowed, [v], none⟩) = [] :=
          ofKey_eq_nil fun a ha => by
            cases allowed with
            | false => exact absurd ha List.not_mem_nil
            | true => rwa [List.mem_singleton.mp ha]
        rw [ofKey_append, ofKey_append, hother, List.nil_append]
        exact List.sublist_append_left _ _
  · exact ⟨room, i.quiet rfl rfl rfl (by rw [hahead]; exact .refl _)
      (by rw [hbehind]; exact .refl _)⟩
  · refine ⟨room ++ [v], i.rearrange hholds rfl rfl fun sensor => ?_⟩
    rw [hahead, hbehind]
    simp [State.afterAdmission]

/-- A hand-off that is not the one to the sink. -/
theorem pass (i : InOrder verify sha256 sink h s room) {d : Delivery}
    (hcontrol : s.control = .delivering d) {a : Observation} (htook : a.received? verify = none)
    (hother : a.deliveredTo? sink = none) :
    InOrder verify sha256 sink (h ++ a :: (s.fanOut sha256 (d.advance s.pipeline)).2)
      (s.fanOut sha256 (d.advance s.pipeline)).1 room := by
  refine i.quiet (stage_fanOut _ _) ?_ ?_ ((ahead_fanOut_sublist _ _).trans ?_) ?_
  · rw [received, List.filterMap_cons_none htook]
    exact received_fanOut verify _ _
  · rw [delivered, List.filterMap_cons_none hother]
    exact delivered_fanOut sink _ _
  · rw [hcontrol]
    exact ahead_advance_sublist d s.pipeline
  · rw [behind_fanOut, hcontrol]
    exact .refl _

/-- The sink took the message, which passes from the line to what was delivered. -/
theorem deliver (i : InOrder verify sha256 sink h s room) {d : Delivery}
    (hcontrol : s.control = .delivering d) (hindex : d.index = sink) :
    InOrder verify sha256 sink (h ++ .handed d.index (d.message.accepted sha256) (.ok ()) ::
      (s.fanOut sha256 (d.advance s.pipeline)).2) (s.fanOut sha256 (d.advance s.pipeline)).1
      room := by
  refine i.shrink (stage_fanOut _ _) ?_ ?_
  · exact received_fanOut verify _ _
  · have hdelivered : delivered sink (.handed d.index (d.message.accepted sha256) (.ok ()) ::
        (s.fanOut sha256 (d.advance s.pipeline)).2) = [d.message.accepted sha256] := by
      have hfirst : (Observation.handed d.index (d.message.accepted sha256) (.ok ())).deliveredTo?
          sink = some (d.message.accepted sha256) := if_pos hindex
      rw [delivered, List.filterMap_cons_some hfirst]
      exact congrArg _ (delivered_fanOut sink _ _)
    have hbefore : (Control.delivering d).ahead sink = d.message :: d.rest.allowed := by
      show (if d.index ≤ sink then [d.message] else []) ++ d.rest.allowed = _
      rw [if_pos hindex.le]
      rfl
    have hafter : (Control.delivering (d.advance s.pipeline)).ahead sink = d.rest.allowed := by
      show (if d.index + 1 ≤ sink then [d.message] else []) ++ d.rest.allowed = _
      rw [if_neg (by omega), List.nil_append]
    have hahead : ((s.fanOut sha256 (d.advance s.pipeline)).1.control.ahead sink).Sublist
        d.rest.allowed := hafter ▸ ahead_fanOut_sublist _ _
    have hbehind : (Control.delivering d).behind = d.rest.held.toList := rfl
    unfold line
    rw [delivered_append, hdelivered, hcontrol, hbefore, hbehind, behind_fanOut,
      List.append_assoc (delivered sink h), List.singleton_append, List.cons_append,
      List.cons_append, List.map_cons]
    exact (((hahead.append_right room).append_right _).map _ |>.cons_cons _).append_left _

/-- A sink took the message, or the delivery goes on without. -/
theorem advance (i : InOrder verify sha256 sink h s room) {d : Delivery}
    (hcontrol : s.control = .delivering d) (result : Except SinkError Unit) :
    InOrder verify sha256 sink (h ++ .handed d.index (d.message.accepted sha256) result ::
      (s.fanOut sha256 (d.advance s.pipeline)).2) (s.fanOut sha256 (d.advance s.pipeline)).1
      room := by
  cases result with
  | error error => exact i.pass hcontrol rfl rfl
  | ok =>
    by_cases hindex : d.index = sink
    · exact i.deliver hcontrol hindex
    · exact i.pass hcontrol rfl (if_neg hindex)

/-- **One step** that overtakes nothing.  Each move is one of the lemmas above, which say how the
line moves on. -/
theorem step (i : InOrder verify sha256 sink h s room) {e : Event} (hkeep : ¬ Overtakes s e)
    (hmove : Move verify sha256 s e s' o) :
    ∃ room', InOrder verify sha256 sink (h ++ o) s' room' := by
  cases hmove with
  | requestShutdown => exact ⟨room, i.quiet rfl rfl rfl (.refl _) (.refl _)⟩
  | stop hcontrol hshutdown =>
    exact ⟨room, i.quiet rfl rfl rfl (List.nil_sublist _) (List.nil_sublist _)⟩
  | resolve hcontrol hresolve =>
    rcases hcontrol with ⟨hcontrol, rfl⟩ | ⟨v, hcontrol, rfl⟩
    · exact i.resolve (by rw [hcontrol]; rfl) (by rw [hcontrol]; rfl) hresolve
    · exact i.resolve (by rw [hcontrol]; rfl) (by rw [hcontrol]; rfl) hresolve
  | @reject message error hcontrol herror =>
    refine ⟨room, i.quiet rfl ?_ rfl ?_ ?_⟩
    · simp [received, Observation.received?, herror]
    · rw [ahead_loop]
      exact List.nil_sublist _
    · rw [behind_loop]
      exact List.nil_sublist _
  | take hcontrol hverified => exact ⟨room, i.take hcontrol hverified⟩
  | close hcontrol =>
    refine ⟨room, i.quiet rfl rfl rfl ?_ ?_⟩
    · rw [ahead_loop]
      exact List.nil_sublist _
    · rw [behind_loop]
      exact List.nil_sublist _
  | admission hcontrol hadmission => exact i.admission hcontrol hkeep hadmission
  | abandon hcontrol hshutdown =>
    refine ⟨room, i.quiet rfl rfl rfl ?_ ?_⟩
    · rw [ahead_loop]
      exact List.nil_sublist _
    · rw [behind_loop]
      exact List.nil_sublist _
  | handle hcontrol => exact ⟨room, i.decide hcontrol _⟩
  | failed hcontrol hsink hrequired =>
    refine ⟨room, i.quiet rfl rfl rfl ?_ ?_⟩
    · rw [hcontrol]
      exact .refl _
    · rw [hcontrol]
      exact .refl _
  | passed hcontrol hsink hdone => exact ⟨room, i.advance hcontrol _⟩
  | slept hcontrol =>
    refine ⟨room, i.quiet rfl rfl rfl ?_ ?_⟩
    · rw [hcontrol]
      exact .refl _
    · rw [hcontrol]
      exact .refl _
  | @giveUp d hcontrol hshutdown =>
    refine ⟨room, i.quiet (stage_fanOut _ _) (received_fanOut verify _ _)
      (delivered_fanOut sink _ _) ((ahead_fanOut_sublist _ _).trans ?_) ?_⟩
    · rw [hcontrol]
      exact ahead_advance_sublist d s.pipeline
    · rw [behind_fanOut, hcontrol]
      exact .refl _

end InOrder

/-! ## The guarantee -/

/-- **The messages of a sensor stay in order.**  In every run, with any answers of the
policy, any order of finished lookups, any failures of sinks and shutdown at any moment, in
which no message is allowed at once while messages of its sensor are parked, each sink gets
the messages of a sensor in the order in which they were received. -/
theorem sensor_order (verify : Ed25519Verify) (sha256 : Sha256) (pipeline : Pipeline)
    (es : List Event) (s : State) (h : List Observation)
    (hrun : (pipelineMachine verify sha256).exec (.start pipeline) es = some (s, h))
    (hkeep : (pipelineMachine verify sha256).StepsMeet (fun s e => ¬ Overtakes s e)
      (.start pipeline) es) (sink : ℕ) (sensor : SensorId) :
    (ofSensor sensor (delivered sink h)).Sublist (ofSensor sensor (received verify sha256 h)) := by
  have hstart : InOrder verify sha256 sink [] (.start pipeline) [] :=
    ⟨holds_new _, fun _ => .refl _⟩
  have hall : ∃ room, InOrder verify sha256 sink h s room :=
    EventMachine.exec_induction_of_stepsMeet
      (P := fun _ h s => ∃ room, InOrder verify sha256 sink h s room) ⟨[], hstart⟩
      (fun _ _ _ _ _ _ _ ⟨_, i⟩ hnot hstep => i.step hnot (move_of_pipelineStep hstep))
      hrun hkeep
  obtain ⟨room, i⟩ := hall
  have hordered := i.ordered sensor
  rw [ofSensor_line] at hordered
  exact (List.sublist_append_left _ _).trans hordered

/-- Both forms of the reading wait for one lookup. -/
def waitedTogether : List Event :=
  [.ingress readingMessage, .admission .counting none, .ingress paddedMessage,
    .admission .counting none, .lookupDone .counting 1 (.finished (.ok true)), .handle 0,
    .sink (.ok ()), .sink (.ok ()), .handle 1, .sink (.ok ())]

theorem sensor_order_waitedTogether :
    ∃ s h, (pipelineMachine verifyReading sha256Reading).exec (.start diskAndGossip)
        waitedTogether =
        some (s, h) ∧
      (delivered 0 h).map AcceptedMessage.rawEnvelope = [rawReading, paddedReading] ∧
      (ofSensor ⟨readingKey⟩ (delivered 0 h)).Sublist
        (ofSensor ⟨readingKey⟩ (received verifyReading sha256Reading h)) := by
  have hshown : ((pipelineMachine verifyReading sha256Reading).exec (.start diskAndGossip)
      waitedTogether).map (fun p => (delivered 0 p.2).map AcceptedMessage.rawEnvelope) =
        some [rawReading, paddedReading] := by
    decide +kernel
  obtain ⟨⟨s, h⟩, hrun, hh⟩ := Option.map_eq_some_iff.mp hshown
  exact ⟨s, h, hrun, hh, sensor_order verifyReading sha256Reading _ waitedTogether s h hrun
    (by decide +kernel) 0 ⟨readingKey⟩⟩

end Pipeline
end Robins
