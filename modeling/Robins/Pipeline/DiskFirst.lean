import Robins.Pipeline.Acceptance

/-!
# Disk before network

With durable batching the first sink of the pipeline is the batch sink, which stores a message
before it takes it.  It is required, so a message it fails to store stays with it: the fan-out
waits and tries again.  The one way past it without storing the message is shutdown, which ends the
attempts at this sink but not the fan-out, and the message is handed to the sinks that follow.

Apart from that step, no other sink sees a message before it is on disk.  The invariant is
`OnDisk`: a delivery that has passed the first sink is of a message that this sink took.  A step
keeps it unless it moves a delivery on from the first sink without having stored the message, and
the pipeline does so only when it notices the shutdown between two attempts (`GivesUpDisk`).
-/

namespace Robins
namespace Pipeline

open Protocol Auth

/-! ## The step that breaks the order -/

/-- The event is a shutdown being noticed. -/
def Event.isStop : Event → Bool
  | .stop => true
  | _ => false

/-- The position of the required sink that is to be tried again. -/
def Control.retrying? : Control → Option ℕ
  | .backoff delivery => some delivery.index
  | _ => none

/-- At shutdown the pipeline gives up storing a message, and there are sinks that follow. -/
def GivesUpDisk (s : State) (e : Event) : Prop :=
  e.isStop = true ∧ s.control.retrying? = some 0 ∧ 1 < s.pipeline.sinks.length

instance (s : State) (e : Event) : Decidable (GivesUpDisk s e) :=
  inferInstanceAs (Decidable (_ ∧ _))

/-- A hand-off to a sink other than the first comes after the first took the message. -/
def AfterDisk (h : List Observation) : Observation → Prop
  | .handed index message _ => index ≠ 0 → .handed 0 message (.ok ()) ∈ h
  | _ => True

/-! ## What a step does to a delivery -/

def Observation.handed? : Observation → Option (ℕ × AcceptedMessage × Except SinkError Unit)
  | .handed index message result => some (index, message, result)
  | _ => none

section

variable {sha256 : Sha256} {s : State} {d : Delivery}

@[simp] theorem sinks_fanOut (s : State) (d : Delivery) :
    (s.fanOut sha256 d).1.pipeline.sinks = s.pipeline.sinks := by
  unfold State.fanOut
  dsimp only
  split_ifs
  · rfl
  · rw [pipeline_proceed]
  · rw [pipeline_proceed]

/-- Going on with a delivery is not a hand-off. -/
theorem handed?_fanOut : ∀ a ∈ (s.fanOut sha256 d).2, a.handed? = none := by
  unfold State.fanOut
  dsimp only
  split_ifs <;> simp [Observation.handed?]

end

/-! ## The invariant -/

/-- A message that has passed the batch sink is on disk. -/
structure OnDisk (sha256 : Sha256) (batch : Sink) (others : List Sink) (h : List Observation)
    (s : State) : Prop where
  sinks_eq : s.pipeline.sinks = batch :: others
  stored : ∀ d, s.control.delivery? = some d → d.index ≠ 0 →
    .handed 0 (d.message.accepted sha256) (.ok ()) ∈ h
  afterDisk : EventMachine.Justified AfterDisk h

namespace OnDisk

variable {verify : Ed25519Verify} {sha256 : Sha256} {batch : Sink} {others : List Sink}
  {h : List Observation} {s : State}

/-- Observations that are not hand-offs need no account. -/
theorem justified_append_of_handed? {o : List Observation}
    (hj : EventMachine.Justified AfterDisk h) (ho : ∀ a ∈ o, a.handed? = none) :
    EventMachine.Justified AfterDisk (h ++ o) := by
  refine EventMachine.justified_append.mpr ⟨hj, fun o₁ a o₂ heq => ?_⟩
  have ha : a.handed? = none := by
    refine ho a ?_
    rw [heq]
    exact List.mem_append_right o₁ List.mem_cons_self
  cases a with
  | handed index message result => exact absurd ha (by simp [Observation.handed?])
  | _ => trivial

/-- Without a delivery nothing needs to be stored. -/
theorem idle (i : OnDisk sha256 batch others h s) {s' : State} {o : List Observation}
    (hsinks : s'.pipeline.sinks = s.pipeline.sinks) (hidle : s'.control.delivery? = none)
    (ho : ∀ a ∈ o, a.handed? = none) : OnDisk sha256 batch others (h ++ o) s' where
  sinks_eq := hsinks.trans i.sinks_eq
  stored d hd := absurd (hidle.symm.trans hd) (by simp)
  afterDisk := justified_append_of_handed? i.afterDisk ho

theorem proceed (i : OnDisk sha256 batch others h s) {rest : Remaining} {o : List Observation}
    (ho : ∀ a ∈ o, a.handed? = none) : OnDisk sha256 batch others (h ++ o) (s.proceed rest) := by
  have hsinks : (s.proceed rest).pipeline.sinks = s.pipeline.sinks :=
    congrArg Pipeline.sinks (pipeline_proceed ..)
  exact i.idle hsinks (delivery?_proceed ..) ho

/-- On to the next sink, if the message is on disk or there is none. -/
theorem fanOut (i : OnDisk sha256 batch others h s) {d : Delivery}
    (hd : d.index ≠ 0 → d.index < s.pipeline.sinks.length →
      .handed 0 (d.message.accepted sha256) (.ok ()) ∈ h) :
    OnDisk sha256 batch others (h ++ (s.fanOut sha256 d).2) (s.fanOut sha256 d).1 where
  sinks_eq := (sinks_fanOut s d).trans i.sinks_eq
  stored d' hd' hindex := by
    obtain ⟨rfl, hlt⟩ := delivery?_fanOut hd'
    exact List.mem_append_left _ (hd hindex hlt)
  afterDisk := justified_append_of_handed? i.afterDisk handed?_fanOut

theorem handed (i : OnDisk sha256 batch others h s) {d : Delivery}
    (hd : s.control.delivery? = some d) (result : Except SinkError Unit) :
    OnDisk sha256 batch others (h ++ [.handed d.index (d.message.accepted sha256) result]) s where
  sinks_eq := i.sinks_eq
  stored d' hd' hindex := List.mem_append_left _ (i.stored d' hd' hindex)
  afterDisk := EventMachine.justified_append_singleton.mpr ⟨i.afterDisk, i.stored d hd⟩

/-- The account does not look at the duplicate cache. -/
theorem redup (i : OnDisk sha256 batch others h s) (dedup : DedupCache) :
    OnDisk sha256 batch others h { s with pipeline := { s.pipeline with dedup } } :=
  ⟨i.sinks_eq, i.stored, i.afterDisk⟩

theorem restage (i : OnDisk sha256 batch others h s) (stage : AuthStage) :
    OnDisk sha256 batch others h { s with stage } :=
  ⟨i.sinks_eq, i.stored, i.afterDisk⟩

/-- A message that is decided starts at the batch sink, if it goes anywhere. -/
theorem decide (i : OnDisk sha256 batch others h s) (now : Instant) (v : Verified)
    (rest : Remaining) :
    OnDisk sha256 batch others (h ++ (s.decide sha256 now v rest).2)
      (s.decide sha256 now v rest).1 := by
  unfold State.decide State.accept
  dsimp only
  split
  · split_ifs
    · exact (i.redup _).fanOut fun hindex => absurd rfl hindex
    · exact (i.redup _).proceed (by simp [Observation.handed?])
  · exact i.proceed (by simp [Observation.handed?])
  · exact i.proceed (by simp [Observation.handed?])

/-- **One step** that does not give up the disk.  Only the moves of a delivery matter, and they
go from one sink to the next after the first has answered. -/
theorem step (i : OnDisk sha256 batch others h s) (hrequired : batch.required = true) {e : Event}
    {s' : State} {o : List Observation} (hkeep : ¬ GivesUpDisk s e)
    (hmove : Move verify sha256 s e s' o) : OnDisk sha256 batch others (h ++ o) s' := by
  cases hmove with
  | requestShutdown =>
    rw [List.append_nil]
    exact ⟨i.sinks_eq, i.stored, i.afterDisk⟩
  | stop hcontrol hshutdown => exact i.idle rfl rfl (by simp)
  | resolve hcontrol hresolve =>
    obtain ⟨⟨sensorId, _⟩, -, hresolve⟩ := Option.bind_eq_some_iff.mp hresolve
    obtain ⟨⟨resolution, stage⟩, -, hresolve⟩ := Option.bind_eq_some_iff.mp hresolve
    obtain ⟨rfl, rfl⟩ := Prod.mk.inj (Option.some.inj hresolve)
    refine (i.restage stage).proceed ?_
    simp [Observation.handed?]
  | reject hcontrol herror =>
    exact i.idle rfl (delivery?_loop s) (by simp [Observation.handed?])
  | take hcontrol hverified => exact i.idle rfl rfl (by simp [Observation.handed?])
  | close hcontrol => exact i.idle rfl (delivery?_loop _) (by simp)
  | @admission v ids known admission stage hcontrol hadmission =>
    have ho : ∀ a ∈ [Observation.tried v known], a.handed? = none := by
      simp [Observation.handed?]
    cases admission with
    | decided allowed message =>
      rw [State.afterAdmission]
      exact (i.restage stage).proceed ho
    | parked => exact (i.restage stage).idle rfl (delivery?_loop _) ho
    | overflow message => exact (i.restage stage).idle rfl rfl ho
  | abandon hcontrol hshutdown =>
    exact i.idle rfl (delivery?_loop s) (by simp [Observation.handed?])
  | handle hcontrol => exact i.decide _ _ _
  | @failed d sink error hcontrol hsink hrequired' =>
    have hd : s.control.delivery? = some d := by rw [hcontrol]; rfl
    have hi := i.handed hd (.error error)
    exact ⟨hi.sinks_eq, fun d' hd' => hi.stored d' (by rw [hcontrol]; exact hd'), hi.afterDisk⟩
  | @passed d sink result hcontrol hsink hdone =>
    have hd : s.control.delivery? = some d := by rw [hcontrol]; rfl
    have hi := (i.handed hd result).fanOut (d := d.advance s.pipeline) fun _ _ => ?_
    · rw [List.append_assoc] at hi
      exact hi
    · by_cases hindex : d.index = 0
      · -- the batch sink took the message
        rw [hindex, i.sinks_eq] at hsink
        obtain rfl := Option.some.inj hsink
        rw [hindex, hdone hrequired]
        exact List.mem_append_right _ List.mem_cons_self
      · exact List.mem_append_left _ (i.stored d hd hindex)
  | @slept d hcontrol =>
    have hd : s.control.delivery? = some d := by rw [hcontrol]; rfl
    rw [List.append_nil]
    refine ⟨i.sinks_eq, fun d' hd' => ?_, i.afterDisk⟩
    obtain rfl := Option.some.inj hd'
    exact i.stored d hd
  | @giveUp d hcontrol hshutdown =>
    have hd : s.control.delivery? = some d := by rw [hcontrol]; rfl
    refine i.fanOut fun _ hlt => ?_
    by_cases hindex : d.index = 0
    · refine absurd ⟨rfl, ?_, ?_⟩ hkeep
      · rw [hcontrol, Control.retrying?, hindex]
      · have hnext : d.index + 1 < s.pipeline.sinks.length := hlt
        omega
    · exact i.stored d hd hindex

end OnDisk

/-! ## The guarantee -/

/-- **Disk before network.**  In every run in which no step gives up storing a message while
sinks follow, with any failures of sinks and shutdown at any moment, a sink other than the
batch sink is handed a message only after the batch sink took it. -/
theorem disk_before_network (verify : Ed25519Verify) (sha256 : Sha256) (pipeline : Pipeline)
    (batch : Sink) (others : List Sink) (hsinks : pipeline.sinks = batch :: others)
    (hrequired : batch.required = true) (es : List Event) (s : State) (h : List Observation)
    (hrun : (pipelineMachine verify sha256).exec (.start pipeline) es = some (s, h))
    (hkeep : (pipelineMachine verify sha256).StepsMeet (fun s e => ¬ GivesUpDisk s e)
      (.start pipeline) es) :
    EventMachine.Justified AfterDisk h := by
  have hstart : OnDisk sha256 batch others [] (.start pipeline) :=
    ⟨hsinks, by simp [State.start, Control.delivery?], EventMachine.justified_nil _⟩
  have hall : OnDisk sha256 batch others h s :=
    EventMachine.exec_induction_of_stepsMeet
      (P := fun _ h s => OnDisk sha256 batch others h s) hstart
      (fun _ _ _ _ _ _ _ i hnot hstep => i.step hrequired hnot (move_of_pipelineStep hstep))
      hrun hkeep
  exact hall.afterDisk

/-- A pipeline that stores and publishes, and remembers sixteen messages for five seconds. -/
def diskAndGossip : Pipeline :=
  ⟨.default, .new 16 5000, [⟨"batch", true⟩, ⟨"gossip", false⟩], (100, 5000)⟩

theorem disk_before_network_sentTwice :
    ∃ s h, (pipelineMachine verifyReading fun _ => readingDigest).exec (.start diskAndGossip)
        sentTwice = some (s, h) ∧ EventMachine.Justified AfterDisk h := by
  have hsome : ((pipelineMachine verifyReading fun _ => readingDigest).exec (.start diskAndGossip)
      sentTwice).isSome = true := by
    decide +kernel
  obtain ⟨⟨s, h⟩, hrun⟩ := Option.isSome_iff_exists.mp hsome
  exact ⟨s, h, hrun, disk_before_network _ _ _ ⟨"batch", true⟩ [⟨"gossip", false⟩] rfl rfl sentTwice
    s h hrun (by decide +kernel)⟩

/-- The store fails, and shutdown comes before it is tried again. -/
def shutdownWhileFailing : List Event :=
  [.ingress readingMessage, .admission .counting (some true), .handle 0,
    .sink (.error (.delivery "batch" "disk full")), .requestShutdown, .stop, .sink (.ok ())]

/-- The reading is published although it was never stored. -/
theorem published_without_disk :
    ∃ s h, (pipelineMachine verifyReading fun _ => readingDigest).exec (.start diskAndGossip)
        shutdownWhileFailing = some (s, h) ∧ ¬ EventMachine.Justified AfterDisk h := by
  have hshown : ((pipelineMachine verifyReading fun _ => readingDigest).exec (.start diskAndGossip)
      shutdownWhileFailing).map (fun p => p.2.filterMap fun a => a.handed?.map fun handed =>
        (handed.1, handed.2.2.toOption)) = some [(0, none), (1, some ())] := by
    decide +kernel
  obtain ⟨⟨s, h⟩, hrun, hhanded⟩ := Option.map_eq_some_iff.mp hshown
  refine ⟨s, h, hrun, fun hjustified => ?_⟩
  have hread : ∀ index result, (∃ message, .handed index message result ∈ h) →
      (index, result.toOption) ∈ [(0, none), (1, some ())] := by
    rintro index result ⟨message, hmem⟩
    rw [← hhanded]
    exact List.mem_filterMap.mpr ⟨_, hmem, rfl⟩
  have hsecond : (1, some ()) ∈ [((0 : ℕ), (none : Option Unit)), (1, some ())] := by simp
  rw [← hhanded] at hsecond
  obtain ⟨a, ha, heq⟩ := List.mem_filterMap.mp hsecond
  cases a with
  | handed index message result =>
    obtain ⟨rfl, -⟩ := Prod.mk.inj (Option.some.inj heq)
    obtain ⟨h₁, h₂, rfl, hafter⟩ := hjustified.exists_of_mem ha
    have hfirst := hread 0 (.ok ()) ⟨message, List.mem_append_left _ (hafter one_ne_zero)⟩
    exact absurd hfirst (by simp [Except.toOption])
  | _ => exact absurd heq (by simp [Observation.handed?])

end Pipeline
end Robins
