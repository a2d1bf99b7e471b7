import Robins.Auth.Whitelist
import Robins.Pipeline.DiskFirst

/-!
# The pipeline with a local policy

Without a chain the policy lets in everyone, or the sensors of a whitelist, and it always knows its
answer when a message is admitted.  Then nothing ever waits in the authorization stage, no lookup is
made, and the pipeline has one message in its hands at most: messages are settled in the order in
which they came, each with the fate that its signature and the policy give it.

`Straight` is the invariant: the stage is as it was, the message in hand follows those settled, and
what the control is about to do agrees with the policy's answer.  The general pipeline has more
states than these.  The steps that lead to the others need an answer that is not known at once, or
a lookup, and neither ever comes (`straight_of_exec`).

For a whitelist the policy is the file it was loaded from, and `whitelist_governs` goes from the
lines of the file to the sinks.
-/

namespace Robins
namespace Auth

open Protocol

/-- A policy that always knows its answer. -/
structure LocalPolicy where
  tryAuthorize : SensorId → Option Bool
  known : ∀ sensorId, (tryAuthorize sensorId).isSome = true

/-- Accept every sensor. -/
def NoneAuth : LocalPolicy := ⟨fun _ => some true, fun _ => rfl⟩

/-- Accept the sensors of the list. -/
def Whitelist.toLocal (list : Whitelist) : LocalPolicy := ⟨list.tryAuthorize, fun _ => rfl⟩

end Auth

namespace Pipeline

open Protocol Auth

/-- An admission is answered as the policy does. -/
def answeredBy (policy : LocalPolicy) (s : State) : Event → Bool
  | .admission _ known =>
    match s.control with
    | .admitting message => decide (known = policy.tryAuthorize message.sensor)
    | _ => true
  | _ => true

/-! ## What is in its hands, and what is shown -/

section

variable (verify : Ed25519Verify) (sha256 : Sha256) (policy : LocalPolicy)

/-- The message was verified, and the policy lets it in. -/
structure LetIn (v : Verified) : Prop where
  verified : verifyEnvelope verify v.message.envelope = .ok v.verified
  allowed : policy.tryAuthorize v.sensor = some true

/-- The control has one message in its hands, or none, and acts on the policy's answer. -/
def Control.Straight : Control → Prop
  | .select | .stopped => True
  | .admitting v => verifyEnvelope verify v.message.envelope = .ok v.verified
  | .held _ => False
  | .resolving rest => ∃ v allowed, rest = ⟨.ok allowed, [v], none⟩ ∧
      verifyEnvelope verify v.message.envelope = .ok v.verified ∧
      policy.tryAuthorize v.sensor = some allowed
  | .delivering d | .backoff d => LetIn verify policy d.message ∧ d.rest.pending = []

def Fate (message : IngressMessage) (outcome : Outcome) : Prop :=
  match verifyEnvelope verify message.envelope with
  | .error error => outcome = .rejected error
  | .ok verified =>
    match policy.tryAuthorize verified.sensorId with
    | some true => (∃ id, outcome = .duplicate id) ∨ outcome = .accepted ∨ outcome = .abandoned
    | _ => outcome = .denied

/-- What is shown of a message agrees with its signature and the policy. -/
def Observation.Straight : Observation → Prop
  | .took _ => True
  | .tried v known => known = policy.tryAuthorize v.sensor
  | .resolved _ _ => False
  | .handed _ message _ => ∃ v, message = v.accepted sha256 ∧ LetIn verify policy v
  | .settled message outcome => Fate verify policy message outcome

/-- Messages go straight through the pipeline, one at a time. -/
structure Straight (limits : AuthLimits) (h : List Observation) (s : State) : Prop where
  idle : s.stage = .new limits
  control : s.control.Straight verify policy
  line : taken h = (outcomes h).map Prod.fst ++ s.control.pending.map Verified.message
  shown : ∀ a ∈ h, a.Straight verify sha256 policy

end

section

variable {verify : Ed25519Verify} {sha256 : Sha256} {policy : LocalPolicy} {limits : AuthLimits}
  {h : List Observation} {s s' : State}

theorem LetIn.fate {v : Verified} (hv : LetIn verify policy v) {outcome : Outcome}
    (houtcome : (∃ id, outcome = .duplicate id) ∨ outcome = .accepted ∨ outcome = .abandoned) :
    Fate verify policy v.message outcome := by
  have hallowed : policy.tryAuthorize v.verified.sensorId = some true := hv.allowed
  simp only [Fate, hv.verified, hallowed]
  exact houtcome

theorem loop_control (s : State) : s.loop.control = .select ∨ s.loop.control = .stopped := by
  unfold State.loop
  dsimp only
  split_ifs
  · exact .inl rfl
  · exact .inr rfl

theorem proceed_of_pending {rest : Remaining} (hrest : rest.pending = []) (s : State) :
    s.proceed rest = s.loop := by
  obtain ⟨decision, messages, held⟩ := rest
  obtain ⟨hmessages, hheld⟩ := List.append_eq_nil_iff.mp hrest
  obtain rfl : messages = [] := hmessages
  cases held with
  | none => rfl
  | some v => exact absurd hheld (by simp)

namespace Straight

theorem start (pipeline : Pipeline) :
    Straight verify sha256 policy pipeline.authLimits [] (.start pipeline) where
  idle := rfl
  control := trivial
  line := rfl
  shown _ ha := absurd ha List.not_mem_nil

/-- The message in hand and those taken are those settled and the one then in hand. -/
theorem advance (i : Straight verify sha256 policy limits h s) {o : List Observation}
    (hstage : s'.stage = s.stage) (hcontrol : s'.control.Straight verify policy)
    (hline : s.control.pending.map Verified.message ++ taken o =
      (outcomes o).map Prod.fst ++ s'.control.pending.map Verified.message)
    (hshown : ∀ a ∈ o, a.Straight verify sha256 policy) :
    Straight verify sha256 policy limits (h ++ o) s' where
  idle := hstage.trans i.idle
  control := hcontrol
  line := by
    rw [taken_append, outcomes_append, i.line, List.append_assoc, hline, List.map_append,
      List.append_assoc]
  shown a ha := (List.mem_append.mp ha).elim (i.shown a) (hshown a)

theorem loop (i : Straight verify sha256 policy limits h s) {o : List Observation}
    {r : State} (hstage : r.stage = s.stage)
    (hline : s.control.pending.map Verified.message ++ taken o = (outcomes o).map Prod.fst)
    (hshown : ∀ a ∈ o, a.Straight verify sha256 policy) :
    Straight verify sha256 policy limits (h ++ o) r.loop := by
  rcases loop_control r with hr | hr
  · refine i.advance hstage (by rw [hr]; trivial) ?_ hshown
    rw [hline, hr, Control.pending, List.map_nil, List.append_nil]
  · refine i.advance hstage (by rw [hr]; trivial) ?_ hshown
    rw [hline, hr, Control.pending, List.map_nil, List.append_nil]

theorem settle (i : Straight verify sha256 policy limits h s) {v : Verified} {r : State}
    {rest : Remaining} {outcome : Outcome} (hpending : s.control.pending = [v])
    (hstage : r.stage = s.stage) (hrest : rest.pending = [])
    (hfate : Fate verify policy v.message outcome) :
    Straight verify sha256 policy limits (h ++ [.settled v.message outcome]) (r.proceed rest) := by
  rw [proceed_of_pending hrest]
  refine i.loop hstage ?_ (List.forall_mem_singleton.mpr hfate)
  rw [hpending]
  rfl

/-- On with the delivery of the message in hand. -/
theorem fanOut (i : Straight verify sha256 policy limits h s) {d : Delivery} {r : State}
    (hpending : s.control.pending = [d.message]) (hstage : r.stage = s.stage)
    (hd : LetIn verify policy d.message) (hrest : d.rest.pending = []) :
    Straight verify sha256 policy limits (h ++ (r.fanOut sha256 d).2) (r.fanOut sha256 d).1 := by
  unfold State.fanOut
  dsimp only
  split_ifs
  · refine i.advance hstage ⟨hd, hrest⟩ ?_ fun a ha => absurd ha List.not_mem_nil
    rw [hpending, Control.pending, hrest]
    rfl
  · exact i.settle hpending hstage hrest (hd.fate (.inr (.inl rfl)))
  · exact i.settle hpending hstage hrest (hd.fate (.inr (.inr rfl)))

/-- The message in hand is handed to a sink. -/
theorem handed (i : Straight verify sha256 policy limits h s) {d : Delivery}
    (hd : LetIn verify policy d.message) (index : ℕ) (result : Except SinkError Unit) :
    Straight verify sha256 policy limits
      (h ++ [.handed index (d.message.accepted sha256) result]) s :=
  i.advance rfl i.control (List.append_nil _) (List.forall_mem_singleton.mpr ⟨_, rfl, hd⟩)

theorem decide (i : Straight verify sha256 policy limits h s) {v : Verified} {allowed : Bool}
    (hpending : s.control.pending = [v])
    (hverified : verifyEnvelope verify v.message.envelope = .ok v.verified)
    (hallowed : policy.tryAuthorize v.sensor = some allowed) (now : Instant) :
    Straight verify sha256 policy limits
      (h ++ (s.decide sha256 now v ⟨.ok allowed, [], none⟩).2)
      (s.decide sha256 now v ⟨.ok allowed, [], none⟩).1 := by
  have hrest : Remaining.pending ⟨.ok allowed, [], none⟩ = [] := rfl
  cases allowed with
  | false =>
    have hsensor : policy.tryAuthorize v.verified.sensorId = some false := hallowed
    have hfate : Fate verify policy v.message .denied := by
      simp only [Fate, hverified, hsensor]
    exact i.settle hpending rfl hrest hfate
  | true =>
    have hin : LetIn verify policy v := ⟨hverified, hallowed⟩
    show Straight _ _ _ _ (h ++ (s.accept sha256 now v _).2) (s.accept sha256 now v _).1
    unfold State.accept
    dsimp only
    split_ifs
    · exact i.fanOut hpending rfl hin hrest
    · have hfate := hin.fate (.inl ⟨envelopeId sha256 v.message.rawEnvelope, rfl⟩)
      refine i.settle hpending ?_ hrest hfate
      rfl

/-- **One step** that the policy answers.  The admission of a message is its decision, so the
stage is never entered and no lookup can be done. -/
theorem step (i : Straight verify sha256 policy limits h s) {e : Event} {o : List Observation}
    (hanswer : answeredBy policy s e = true) (hmove : Move verify sha256 s e s' o) :
    Straight verify sha256 policy limits (h ++ o) s' := by
  cases hmove with
  | requestShutdown =>
    exact i.advance rfl i.control (List.append_nil _) fun a ha => absurd ha List.not_mem_nil
  | stop hcontrol hshutdown =>
    refine i.advance rfl trivial ?_ fun a ha => absurd ha List.not_mem_nil
    rw [hcontrol]
    rfl
  | resolve hcontrol hresolve =>
    -- no lookup runs that could be joined
    obtain ⟨joined, hjoin, -⟩ := Option.bind_eq_some_iff.mp hresolve
    rw [i.idle] at hjoin
    exact absurd hjoin (by simp [AuthStage.join, AuthStage.new])
  | reject hcontrol herror =>
    refine i.loop rfl ?_ (List.forall_mem_cons.mpr ⟨trivial, List.forall_mem_singleton.mpr ?_⟩)
    · rw [hcontrol]
      rfl
    · show Fate _ _ _ _
      simp only [Fate, herror]
  | take hcontrol hverified =>
    refine i.advance rfl hverified ?_ (List.forall_mem_singleton.mpr trivial)
    rw [hcontrol]
    rfl
  | close hcontrol =>
    refine i.loop rfl ?_ fun a ha => absurd ha List.not_mem_nil
    rw [hcontrol]
    rfl
  | @admission v ids known admission stage hcontrol hadmission =>
    have hverified : verifyEnvelope verify v.message.envelope = .ok v.verified := by
      have hc := i.control
      rwa [hcontrol] at hc
    have hknown : known = policy.tryAuthorize v.sensor := by
      simpa [answeredBy, hcontrol] using hanswer
    obtain ⟨allowed, hallowed⟩ := Option.isSome_iff_exists.mp (policy.known v.sensor)
    rw [hknown, hallowed] at hadmission
    obtain ⟨rfl, rfl⟩ := Prod.mk.inj hadmission
    refine i.advance rfl ⟨v, allowed, rfl, hverified, hallowed⟩ ?_
      (List.forall_mem_singleton.mpr hknown)
    rw [hcontrol]
    rfl
  | abandon hcontrol hshutdown =>
    have hc := i.control
    rw [hcontrol] at hc
    exact hc.elim
  | @handle v rest now hcontrol =>
    have hc := i.control
    rw [hcontrol] at hc
    obtain ⟨v', allowed, heq, hverified, hallowed⟩ := hc
    obtain ⟨decision, messages, held⟩ := rest
    obtain ⟨rfl, hmessages, rfl⟩ := Remaining.mk.inj heq
    obtain ⟨rfl, rfl⟩ := List.cons.inj hmessages
    exact i.decide (by rw [hcontrol]; rfl) hverified hallowed now
  | @failed d sink error hcontrol hsink hrequired =>
    have hc := i.control
    rw [hcontrol] at hc
    have hi := i.handed hc.1 d.index (.error error)
    refine ⟨hi.idle, hc, ?_, hi.shown⟩
    have hline := hi.line
    rwa [hcontrol] at hline
  | @passed d sink result hcontrol hsink hdone =>
    have hc := i.control
    rw [hcontrol] at hc
    have hpending : s.control.pending = [d.message] := by
      rw [hcontrol, Control.pending, hc.2]
    have hi := (i.handed hc.1 d.index result).fanOut (d := d.advance s.pipeline) hpending rfl hc.1
      hc.2
    rw [List.append_assoc] at hi
    exact hi
  | @slept d hcontrol =>
    have hc := i.control
    rw [hcontrol] at hc
    refine i.advance rfl hc ?_ fun a ha => absurd ha List.not_mem_nil
    rw [hcontrol]
    exact List.append_nil _
  | @giveUp d hcontrol hshutdown =>
    have hc := i.control
    rw [hcontrol] at hc
    have hpending : s.control.pending = [d.message] := by
      rw [hcontrol, Control.pending, hc.2]
    exact i.fanOut hpending rfl hc.1 hc.2

end Straight

end

/-! ## The guarantee -/

/-- **Straight through.**  In every run with a policy that always knows, with any failures of
sinks and shutdown at any moment, the stage stays as it was at the start, messages are settled
in the order in which they came, and what is shown of each agrees with its signature and the
policy. -/
theorem straight_of_exec {verify : Ed25519Verify} {sha256 : Sha256} {policy : LocalPolicy}
    {pipeline : Pipeline} {es : List Event} {s : State} {h : List Observation}
    (hrun : (pipelineMachine verify sha256).exec (.start pipeline) es = some (s, h))
    (hanswers : (pipelineMachine verify sha256).StepsMeet
      (fun s e => answeredBy policy s e = true) (.start pipeline) es) :
    Straight verify sha256 policy pipeline.authLimits h s :=
  EventMachine.exec_induction_of_stepsMeet
    (P := fun _ h s => Straight verify sha256 policy pipeline.authLimits h s)
    (Straight.start pipeline)
    (fun _ _ _ _ _ _ _ i hanswer hstep => i.step hanswer (move_of_pipelineStep hstep))
    hrun hanswers

/-- A message that was verified is denied exactly if the policy does not let its sensor in. -/
theorem Fate.denied_iff {verify : Ed25519Verify} {policy : LocalPolicy} {message : IngressMessage}
    {outcome : Outcome} (hfate : Fate verify policy message outcome) {verified : VerifiedEnvelope}
    (hverified : verifyEnvelope verify message.envelope = .ok verified) :
    outcome = .denied ↔ policy.tryAuthorize verified.sensorId ≠ some true := by
  simp only [Fate, hverified] at hfate
  split at hfate
  · next hallowed =>
    refine iff_of_false ?_ (not_not_intro hallowed)
    rcases hfate with ⟨id, rfl⟩ | rfl | rfl <;> simp
  · next hallowed => exact iff_of_true hfate hallowed

/-- Nobody is denied where everyone is let in. -/
theorem noneAuth_denies_nobody {verify : Ed25519Verify} {sha256 : Sha256} {pipeline : Pipeline}
    {es : List Event} {s : State} {h : List Observation}
    (hrun : (pipelineMachine verify sha256).exec (.start pipeline) es = some (s, h))
    (hanswers : (pipelineMachine verify sha256).StepsMeet
      (fun s e => answeredBy NoneAuth s e = true) (.start pipeline) es)
    (message : IngressMessage) : .settled message .denied ∉ h := by
  intro hmem
  have hfate : Fate verify NoneAuth message .denied :=
    (straight_of_exec hrun hanswers).shown _ hmem
  cases hverified : verifyEnvelope verify message.envelope with
  | error error =>
    simp only [Fate, hverified] at hfate
    exact absurd hfate (by simp)
  | ok verified => exact (hfate.denied_iff hverified).mp rfl rfl

/-- **From the file to the sinks.**  In every run with the policy that was loaded from a file,
messages go straight through, a sink is handed only messages of sensors that a line of the file
names, and a message that was verified is denied exactly if no line names its sensor. -/
theorem whitelist_governs (verify : Ed25519Verify) (sha256 : Sha256) (crates : KeyCrates)
    (path contents : String) (list : Whitelist)
    (hloaded : Whitelist.fromFile crates path (.ok contents) = .ok list) (pipeline : Pipeline)
    (es : List Event) (s : State) (h : List Observation)
    (hrun : (pipelineMachine verify sha256).exec (.start pipeline) es = some (s, h))
    (hanswers : (pipelineMachine verify sha256).StepsMeet
      (fun s e => answeredBy list.toLocal s e = true) (.start pipeline) es) :
    Straight verify sha256 list.toLocal pipeline.authLimits h s ∧
      (∀ index message result, .handed index message result ∈ h →
        ∃ line ∈ textLines contents, Names crates line message.sensorId) ∧
      ∀ message outcome verified, .settled message outcome ∈ h →
        verifyEnvelope verify message.envelope = .ok verified →
        (outcome = .denied ↔
          ¬ ∃ line ∈ textLines contents, Names crates line verified.sensorId) := by
  have hstraight := straight_of_exec hrun hanswers
  have hnamed := mem_allowed_iff (fromFile_eq_ok_iff.mp hloaded)
  have hlisted : ∀ id, list.toLocal.tryAuthorize id = some true ↔
      ∃ line ∈ textLines contents, Names crates line id := fun id =>
    (tryAuthorize_eq_some_true_iff list id).trans (hnamed id)
  refine ⟨hstraight, fun index message result hmem => ?_,
    fun message outcome verified hmem hverified => ?_⟩
  · obtain ⟨v, rfl, hin⟩ := hstraight.shown _ hmem
    exact (hlisted _).mp hin.allowed
  · have hfate : Fate verify list.toLocal message outcome := hstraight.shown _ hmem
    rw [hfate.denied_iff hverified, Ne, hlisted]

/-- A file with the key of the reading, in hex. -/
def readingFile : String := "# roof\n0x" ++ hexEncode readingKey.1 ++ " # reading\n"

/-- The reading comes twice; the durable sink fails once. -/
def readTwice : List Event :=
  [.ingress readingMessage, .admission .counting (some true), .handle 0,
    .sink (.error (.delivery "batch" "disk full")), .slept, .sink (.ok ()),
    .sink (.error (.closed "gossip")), .ingress readingMessage,
    .admission .counting (some true), .handle 1000]

theorem whitelist_governs_readTwice :
    ∃ s h, (pipelineMachine verifyReading fun _ => readingDigest).exec (.start diskAndGossip)
        readTwice = some (s, h) ∧
      outcomes h = [(readingMessage, .accepted), (readingMessage, .duplicate ⟨readingDigest⟩)] ∧
      ∃ line ∈ textLines readingFile, Names Auth.sensorKeys line ⟨readingKey⟩ := by
  have hshown : ((pipelineMachine verifyReading fun _ => readingDigest).exec (.start diskAndGossip)
      readTwice).map (fun state => outcomes state.2) =
        some [(readingMessage, .accepted), (readingMessage, .duplicate ⟨readingDigest⟩)] := by
    decide +kernel
  obtain ⟨⟨s, h⟩, hrun, houtcomes⟩ := Option.map_eq_some_iff.mp hshown
  have hgoverned := whitelist_governs _ _ Auth.sensorKeys "sensors.txt" readingFile ⟨{⟨readingKey⟩}⟩
    (by decide +kernel) diskAndGossip readTwice s h hrun (by decide +kernel)
  refine ⟨s, h, hrun, houtcomes, ?_⟩
  have hsettled : .settled readingMessage .accepted ∈ h := by
    have hmem : (readingMessage, Outcome.accepted) ∈ outcomes h := by
      rw [houtcomes]
      exact List.mem_cons_self
    obtain ⟨a, ha, heq⟩ := List.mem_filterMap.mp hmem
    cases a with
    | settled message outcome =>
      obtain ⟨rfl, rfl⟩ := Prod.mk.inj (Option.some.inj heq)
      exact ha
    | _ => exact absurd heq (by simp [Observation.settled?])
  have hverified : verifyEnvelope verifyReading readingMessage.envelope =
      .ok ⟨⟨readingKey⟩, reading⟩ := by
    decide +kernel
  by_contra hnot
  have hdenied := (hgoverned.2.2 _ _ _ hsettled hverified).mpr hnot
  exact absurd hdenied (by simp)

end Pipeline
end Robins
