import Robins.Pipeline.Model
import Mathlib.Data.List.AList

/-!
# The authorization stage

Messages whose decision is not known at once are parked by sensor.  A sensor with parked messages
waits in a queue for its lookup, or has one running; the lookup decides all of its messages
together, and a bounded number of lookups runs at the same time.

The runtime decides three things that are parameters here: the identifiers of tasks, of which it
promises only that a new one differs from those in the set; the order in which tasks finish; and
whether a task panics, which is a lookup that failed.

A place in the stage is taken by a message, not by a sensor.  When none is free the message goes
back to the caller, who takes up finished lookups until there is one; no message is dropped for
want of room.
-/

namespace Robins
namespace Pipeline

open Protocol Auth

/-! ## Limits -/

/-- Default for `maxConcurrent`. -/
def defaultMaxConcurrentLookups : ℕ := 8

/-- Default for `maxPending`. -/
def defaultMaxPending : ℕ := 256

/-- Bounds of the stage. -/
structure AuthLimits where
  maxConcurrent : ℕ
  maxPending : ℕ
  deriving DecidableEq, Repr

/-- The bounds used where none are given. -/
def AuthLimits.default : AuthLimits := ⟨defaultMaxConcurrentLookups, defaultMaxPending⟩

/-- Bounds that leave room for one lookup and one message. -/
structure StageLimits extends AuthLimits where
  maxConcurrent_pos : 0 < maxConcurrent
  maxPending_pos : 0 < maxPending

/-- Raise the bounds to one. -/
def AuthLimits.clamp (limits : AuthLimits) : StageLimits where
  maxConcurrent := max limits.maxConcurrent 1
  maxPending := max limits.maxPending 1
  maxConcurrent_pos := by omega
  maxPending_pos := by omega

/-! ## Tasks -/

abbrev TaskId := ℕ

/-- A choice of identifiers for new tasks, different from those in use. -/
structure TaskIds where
  fresh : List TaskId → TaskId
  fresh_notMem : ∀ used, fresh used ∉ used

/-- Identifiers one above all in use. -/
def TaskIds.counting : TaskIds where
  fresh used := used.foldr max 0 + 1
  fresh_notMem used hmem := by
    have hle : ∀ (l : List TaskId), ∀ id ∈ l, id ≤ l.foldr max 0 := by
      intro l
      induction l with
      | nil => simp
      | cons a l ih =>
        intro id hid
        rcases List.mem_cons.mp hid with rfl | hid
        · exact Nat.le_max_left ..
        · exact Nat.le_trans (ih id hid) (Nat.le_max_right ..)
    exact Nat.not_succ_le_self _ (hle used _ hmem)

/-- A set of running tasks, and the sensor each one decides. -/
abbrev JoinSet := AList fun _ : TaskId => SensorId

/-- How many tasks have not been joined. -/
def JoinSet.len (running : JoinSet) : ℕ := running.keys.length

def JoinSet.sensors (running : JoinSet) : List SensorId := running.entries.map Sigma.snd

/-- How a task ends: with a decision, or in a panic. -/
inductive TaskEnd where
  | finished (decision : Decision)
  | panicked
  deriving DecidableEq

/-! ## The stage -/

/-- What the stage did with a message. -/
inductive Admission where
  | decided (allowed : Bool) (message : Verified)
  | parked
  | overflow (message : Verified)
  deriving DecidableEq

/-- The outcome of one lookup, for every message that waited for it. -/
structure Resolution where
  decision : Decision
  messages : List Verified
  deriving DecidableEq

/-- The lookups of messages whose decision is not known. -/
structure AuthStage where
  limits : StageLimits
  parked : AList fun _ : SensorId => List Verified
  queued : List SensorId
  running : JoinSet
  runningIds : AList fun _ : TaskId => SensorId
  pending : ℕ

def AuthStage.new (limits : AuthLimits) : AuthStage := ⟨limits.clamp, ∅, [], ∅, ∅, 0⟩

/-- Whether any message waits for a decision. -/
def AuthStage.isBusy (stage : AuthStage) : Bool := decide (stage.pending > 0)

/-- Start the lookup of a sensor. -/
def AuthStage.spawn (ids : TaskIds) (sensorId : SensorId) (stage : AuthStage) : AuthStage :=
  let id := ids.fresh stage.running.keys
  { stage with
    running := stage.running.insert id sensorId
    runningIds := stage.runningIds.insert id sensorId }

/-- Start the lookups of a queue while there is room; the rest stays queued. -/
def AuthStage.startFrom (ids : TaskIds) : List SensorId → AuthStage → AuthStage
  | [], stage => { stage with queued := [] }
  | sensorId :: queued, stage =>
    if stage.running.len < stage.limits.maxConcurrent then
      startFrom ids queued (stage.spawn ids sensorId)
    else
      { stage with queued := sensorId :: queued }

/-- Start lookups for queued sensors while there is room. -/
def AuthStage.startQueued (ids : TaskIds) (stage : AuthStage) : AuthStage :=
  stage.startFrom ids stage.queued

/-- Decide a message if its decision is known, otherwise park it. -/
def AuthStage.admitMessage (ids : TaskIds) (stage : AuthStage) (known : Option Bool)
    (message : Verified) : Admission × AuthStage :=
  match known with
  | some allowed => (.decided allowed message, stage)
  | none =>
    if stage.pending ≥ stage.limits.maxPending then (.overflow message, stage)
    else
      let stage := { stage with pending := stage.pending + 1 }
      match stage.parked.lookup message.sensor with
      | some waiting =>
        (.parked, { stage with
          parked := stage.parked.insert message.sensor (waiting ++ [message]) })
      | none =>
        (.parked, AuthStage.startQueued ids { stage with
          parked := stage.parked.insert message.sensor [message]
          queued := stage.queued ++ [message.sensor] })

/-- The sensor a joined task has decided, and the decision; `none` waits forever. -/
def AuthStage.join (stage : AuthStage) (id : TaskId) (taskEnd : TaskEnd) :
    Option (SensorId × Decision) :=
  match stage.running.lookup id with
  | none => none
  | some sensorId =>
    match taskEnd with
    | .finished decision => some (sensorId, decision)
    | .panicked =>
      match stage.runningIds.lookup id with
      | none => none
      | some sensorId => some (sensorId, .error (.lookup "lookup task failed"))

/-- The next finished lookup, when it is the one of task `id`.  A task that is not
in the set does not finish, and a call without a finished task waits; both are
`none`. -/
def AuthStage.nextResolution (ids : TaskIds) (stage : AuthStage) (id : TaskId)
    (taskEnd : TaskEnd) : Option (Resolution × AuthStage) :=
  (stage.join id taskEnd).map fun (sensorId, decision) =>
    let messages := (stage.parked.lookup sensorId).getD []
    (⟨decision, messages⟩, AuthStage.startQueued ids { stage with
      running := stage.running.erase id
      runningIds := stage.runningIds.erase id
      parked := stage.parked.erase sensorId
      pending := stage.pending - messages.length })

end Pipeline
end Robins
