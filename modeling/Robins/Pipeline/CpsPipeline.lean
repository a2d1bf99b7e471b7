import Robins.Pipeline.Order
import Robins.Auth.CpsCache

/-!
# The pipeline with the `cps` policy

The policy answers the stage from its cache, and a lookup is a task that calls `authorize`.  Here
the calls are those of the policy as a machine of its own: `try_authorize` is called when a message
is admitted, and its answer is the admission's; a task calls `authorize` once it runs, and finishes
with its answer.  A task that is done waits for the stage to join it, and meanwhile anything else
may happen.

The pipeline inside this machine runs as it does with some policy (`pipeline_exec_of_exec`), so
what holds of the pipeline with any answers holds here.  What it does not show is that the answers
come in a certain order, and one thing depends on it: the policy knows a decision before the
messages that waited for it are returned.  One run delivers a sensor's messages in the wrong order
because of that (`not_sublist_overtaken`).
-/

namespace Robins
namespace Pipeline

open Protocol Auth

/-! ## The machine -/

/-- The call that returns, and its answer; `none` is a miss of `try_authorize`. -/
def answer? : Auth.Observation → Option (ℕ × Option Decision)
  | .hit id _ allowed _ => some (id, some (.ok allowed))
  | .missed id _ => some (id, none)
  | .answered id _ decision => some (id, some decision)
  | .verified _ | .completed _ _ _ | .stored _ _ _ _ => none

/-- The pipeline, its policy, and the calls between them. -/
structure CpsPipeline (caches : Caches) where
  pipeline : State
  policy : Auth.State caches
  /-- The call of `try_authorize` the pipeline is in. -/
  trying : Option ℕ
  /-- The call of `authorize` each task has made. -/
  lookups : TaskId → Option ℕ
  /-- What the calls have returned. -/
  returned : ℕ → Option (Option Decision)

inductive CpsEvent where
  /-- A step of the pipeline that needs no answer of the policy. -/
  | pipeline (e : Event)
  /-- A step of the policy in the calls that were made. -/
  | policy (e : Auth.Event)
  /-- A message is admitted: `try_authorize` is called. -/
  | tryAuthorize
  /-- It has returned. -/
  | admission (ids : TaskIds)
  /-- A task begins to run: it calls `authorize`. -/
  | spawned (id : TaskId)
  /-- A task that has returned, or panicked, is joined. -/
  | lookupDone (ids : TaskIds) (id : TaskId) (taskEnd : TaskEnd)

/-- The event takes an answer of the policy. -/
def Event.needsAnswer : Event → Bool
  | .admission _ _ | .lookupDone _ _ _ => true
  | _ => false

/-- The event makes a call, or gives one up. -/
def isCall : Auth.Event → Bool
  | .call _ _ | .cancel _ => true
  | _ => false

section

variable {caches : Caches}

def CpsPipeline.start (auth : CpsAuth) (caches : Caches) (pipeline : Pipeline) :
    CpsPipeline caches where
  pipeline := .start pipeline
  policy := auth.start caches
  trying := none
  lookups _ := none
  returned _ := none

/-- A step of the policy; what calls return is kept for those who made them. -/
def CpsPipeline.feed (auth : CpsAuth) (s : CpsPipeline caches) (e : Auth.Event) :
    Option (CpsPipeline caches) :=
  (auth.step s.policy e).map fun next =>
    { s with
      policy := next.1
      returned := (next.2.filterMap answer?).foldl
        (fun returned p => Function.update returned p.1 (some p.2)) s.returned }

/-- One step; what it shows is what the pipeline shows. -/
def cpsPipelineStep (auth : CpsAuth) (verify : Ed25519Verify) (sha256 : Sha256)
    (s : CpsPipeline caches) : CpsEvent → Option (CpsPipeline caches × List Observation)
  | .pipeline e =>
    if e.needsAnswer then none
    else (pipelineStep verify sha256 s.pipeline e).map fun next =>
      ({ s with pipeline := next.1 }, next.2)
  | .policy e => if isCall e then none else (s.feed auth e).map fun s => (s, [])
  | .tryAuthorize =>
    match s.pipeline.control, s.trying with
    | .admitting message, none =>
      (s.feed auth (.call .tryAuthorize message.sensor)).map fun next =>
        ({ next with trying := some s.policy.next }, [])
    | _, _ => none
  | .admission ids =>
    (s.trying.bind s.returned).bind fun answer =>
      let known := answer.bind Except.toOption
      (pipelineStep verify sha256 s.pipeline (.admission ids known)).map fun next =>
        ({ s with pipeline := next.1, trying := none }, next.2)
  | .spawned id =>
    match s.pipeline.stage.running.lookup id, s.lookups id with
    | some sensor, none =>
      (s.feed auth (.call .authorize sensor)).map fun next =>
        ({ next with lookups := Function.update s.lookups id (some s.policy.next) }, [])
    | _, _ => none
  | .lookupDone ids id taskEnd =>
    if taskEnd = .panicked ∨ ((s.lookups id).bind s.returned) = some (some taskEnd.decision) then
      (pipelineStep verify sha256 s.pipeline (.lookupDone ids id taskEnd)).map fun next =>
        ({ s with pipeline := next.1, lookups := Function.update s.lookups id none }, next.2)
    else none

/-- The pipeline with the `cps` policy, as a machine. -/
def cpsPipelineMachine (auth : CpsAuth) (caches : Caches) (verify : Ed25519Verify)
    (sha256 : Sha256) : EventMachine (CpsPipeline caches) CpsEvent Observation :=
  ⟨cpsPipelineStep auth verify sha256⟩

/-! ## The pipeline alone -/

variable {auth : CpsAuth} {verify : Ed25519Verify} {sha256 : Sha256} {s s' : CpsPipeline caches}
  {o : List Observation}

theorem pipeline_feed {e : Auth.Event} (h : s.feed auth e = some s') :
    s'.pipeline = s.pipeline := by
  obtain ⟨next, -, rfl⟩ := Option.map_eq_some_iff.mp h
  rfl

/-- A step is a step of the pipeline, or the pipeline stays where it is. -/
theorem pipeline_step {e : CpsEvent}
    (hstep : cpsPipelineStep auth verify sha256 s e = some (s', o)) :
    (s'.pipeline = s.pipeline ∧ o = []) ∨
      ∃ e', pipelineStep verify sha256 s.pipeline e' = some (s'.pipeline, o) := by
  cases e with
  | pipeline e =>
    simp only [cpsPipelineStep] at hstep
    split_ifs at hstep
    obtain ⟨next, hnext, heq⟩ := Option.map_eq_some_iff.mp hstep
    obtain ⟨rfl, rfl⟩ := Prod.mk.inj heq
    exact .inr ⟨e, hnext⟩
  | policy e =>
    simp only [cpsPipelineStep] at hstep
    split_ifs at hstep
    obtain ⟨next, hfeed, heq⟩ := Option.map_eq_some_iff.mp hstep
    obtain ⟨rfl, rfl⟩ := Prod.mk.inj heq
    exact .inl ⟨pipeline_feed hfeed, rfl⟩
  | tryAuthorize =>
    simp only [cpsPipelineStep] at hstep
    split at hstep
    · obtain ⟨next, hfeed, heq⟩ := Option.map_eq_some_iff.mp hstep
      obtain ⟨rfl, rfl⟩ := Prod.mk.inj heq
      have hsame : next.pipeline = s.pipeline := pipeline_feed hfeed
      exact .inl ⟨hsame, rfl⟩
    · exact absurd hstep (by simp)
  | admission ids =>
    obtain ⟨answer, -, hstep⟩ := Option.bind_eq_some_iff.mp hstep
    obtain ⟨next, hnext, heq⟩ := Option.map_eq_some_iff.mp hstep
    obtain ⟨rfl, rfl⟩ := Prod.mk.inj heq
    exact .inr ⟨_, hnext⟩
  | spawned id =>
    simp only [cpsPipelineStep] at hstep
    split at hstep
    · obtain ⟨next, hfeed, heq⟩ := Option.map_eq_some_iff.mp hstep
      obtain ⟨rfl, rfl⟩ := Prod.mk.inj heq
      have hsame : next.pipeline = s.pipeline := pipeline_feed hfeed
      exact .inl ⟨hsame, rfl⟩
    · exact absurd hstep (by simp)
  | lookupDone ids id taskEnd =>
    simp only [cpsPipelineStep] at hstep
    split_ifs at hstep
    obtain ⟨next, hnext, heq⟩ := Option.map_eq_some_iff.mp hstep
    obtain ⟨rfl, rfl⟩ := Prod.mk.inj heq
    exact .inr ⟨_, hnext⟩

/-- **The pipeline runs as it does with some policy**, so what is proved of any answers holds
with the `cps` policy too. -/
theorem pipeline_exec_of_exec {pipeline : Pipeline} {es : List CpsEvent} {h : List Observation}
    (hrun : (cpsPipelineMachine auth caches verify sha256).exec
      (.start auth caches pipeline) es = some (s, h)) :
    ∃ fs, (pipelineMachine verify sha256).exec (.start pipeline) fs = some (s.pipeline, h) := by
  refine EventMachine.exec_induction (P := fun _ h s => ∃ fs,
    (pipelineMachine verify sha256).exec (.start pipeline) fs = some (s.pipeline, h)) ?_ ?_ hrun
  · exact ⟨[], rfl⟩
  · rintro _ h s e s' o - ⟨fs, hfs⟩ hstep
    rcases pipeline_step hstep with ⟨hsame, rfl⟩ | ⟨e', hstep'⟩
    · exact ⟨fs, by rw [hsame, List.append_nil, hfs]⟩
    · exact ⟨fs ++ [e'], EventMachine.exec_snoc_eq_some_iff.mpr ⟨_, _, _, hfs, hstep', rfl⟩⟩

end

/-! ## Overtaken by a cache hit -/

/-- The reading waits for its lookup; the lookup allows the sensor and is not joined yet when
the padded reading arrives, which the cache allows at once. -/
def overtaken : List CpsEvent :=
  [.pipeline (.ingress readingMessage), .tryAuthorize, .policy (.run 0), .policy (.run 0),
    .admission .counting, .spawned 1, .policy (.run 1), .policy (.run 1), .policy (.run 1),
    .policy (.verify 1 (.ok ())), .policy (.snapshot 1 (.ok ())),
    .policy (.nodeOf 1 (.ok (some 3))),
    .policy (.lineage 1 (.ok (.parent 1))), .policy (.run 1), .policy (.run 1),
    .pipeline (.ingress paddedMessage), .tryAuthorize, .policy (.run 2), .policy (.run 2),
    .admission .counting, .pipeline (.handle 0), .pipeline (.sink (.ok ())),
    .pipeline (.sink (.ok ())), .lookupDone .counting 1 (.finished (.ok true)),
    .pipeline (.handle 1), .pipeline (.sink (.ok ())), .pipeline (.sink (.ok ()))]

/-- The batch sink gets the sensor's two messages in the wrong order. -/
theorem not_sublist_overtaken :
    ∃ s h, (cpsPipelineMachine smallCps (recencyCache SensorId Entry) verifyReading
        sha256Reading).exec (.start smallCps _ diskAndGossip) overtaken = some (s, h) ∧
      (∃ es, (pipelineMachine verifyReading sha256Reading).exec (.start diskAndGossip) es =
        some (s.pipeline, h)) ∧
      ¬ (ofSensor ⟨readingKey⟩ (delivered 0 h)).Sublist
        (ofSensor ⟨readingKey⟩ (received verifyReading sha256Reading h)) := by
  have hshown : ((cpsPipelineMachine smallCps (recencyCache SensorId Entry) verifyReading
      sha256Reading).exec (.start smallCps _ diskAndGossip) overtaken).map (fun p =>
        ((ofSensor ⟨readingKey⟩ (delivered 0 p.2)).map AcceptedMessage.rawEnvelope,
          (ofSensor ⟨readingKey⟩ (received verifyReading sha256Reading p.2)).map
            AcceptedMessage.rawEnvelope)) =
      some ([paddedReading, rawReading], [rawReading, paddedReading]) := by
    decide +kernel
  obtain ⟨⟨s, h⟩, hrun, hh⟩ := Option.map_eq_some_iff.mp hshown
  obtain ⟨hdelivered, hreceived⟩ := Prod.mk.inj hh
  refine ⟨s, h, hrun, pipeline_exec_of_exec hrun, fun hsublist => ?_⟩
  have hraw := hsublist.map AcceptedMessage.rawEnvelope
  rw [hdelivered, hreceived] at hraw
  exact absurd hraw (by decide +kernel)

end Pipeline
end Robins
