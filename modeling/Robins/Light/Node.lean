import Mathlib.Data.List.TakeWhile
import Robins.Lib.EventMachine
import Robins.Basic

/-!
# The status of the embedded light node

Two tasks write the status of a light node.  `start` replaces `starting` by `rpcReady` once the
endpoint listens; the monitor, which `start` spawned before that, follows the states that the
chain's lifecycle subscription delivers.  While the status is still `starting` the monitor leaves
it alone, and the state it has taken is gone.

So what the status says depends on whether the monitor takes a state after `start` has published:
if it does, the status is that of the last state; if it does not, it is `rpcReady`, whatever the
states were.

## What is up to the world

When a state arrives, when a task is scheduled and when one panics is up to the world.  Whether the
subscription delivers each state or only the latest of several is also left open: what the monitor
takes may supersede states delivered before it.

## The condition

`upToDate_iff_keptUp` is about every interleaving of the two tasks.  Once `start` has returned and
all states are processed, nothing was lost exactly if the monitor took a state after the endpoint
was published, or there was nothing to lose: no state was emitted, or the last one has the very
status that `start` has set.  `Tracks` carries, through the run, which states the monitor still has
to take and what the status is, as long as the node does not come to an end.  What comes to an end
stays so, which is why the registry may rely on it.
-/

namespace Robins
namespace Light

/-! ## Status -/

inductive LightStatus where
  /-- The endpoint is not listening yet. -/
  | starting
  /-- The endpoint is listening, but no synchronization progress is known yet. -/
  | rpcReady
  | syncing (finalized target : UInt64) (peers : UInt32)
  | ready
  | stopped
  | failed (reason : String)
  deriving DecidableEq, Repr

namespace LightStatus

/-- Synchronized enough to answer finalized-state queries. -/
def isReady : LightStatus → Bool
  | ready => true
  | _ => false

/-- The node no longer runs. -/
def isTerminal : LightStatus → Bool
  | stopped | failed _ => true
  | _ => false

/-- The text of a status (its `Display`). -/
def toText : LightStatus → String
  | starting => "starting"
  | rpcReady => "rpc-ready"
  | syncing finalized target peers =>
    "syncing (finalized #" ++ toString finalized ++ ", target #" ++ toString target ++ ", " ++
      toString peers ++ " peers)"
  | ready => "ready"
  | stopped => "stopped"
  | failed reason => "failed: " ++ reason

end LightStatus

/-- Failures of a running light node. -/
inductive LightError where
  | server (source : String)
  | shutdown (source : String)
  deriving DecidableEq, Repr

/-- What `wait_ready` returns at this status, if it returns. -/
def waitReady (status : LightStatus) : Option (Except LightError Unit) :=
  if status.isReady || status.isTerminal then
    some (match status with
      | .ready => .ok ()
      | other => .error (.server other.toText))
  else none

/-- What `wait` returns at this status, if it returns. -/
def wait (status : LightStatus) : Option (Except LightError Unit) :=
  if status.isTerminal then
    some (match status with
      | .failed reason => .error (.server reason)
      | _ => .ok ())
  else none

/-! ## Lifecycle states -/

/-- How far the parachain is synchronized. -/
inductive Phase where
  | connecting
  | syncing (reached target : UInt64)
  | ready
  deriving DecidableEq, Repr

/-- What the lifecycle subscription delivers. -/
structure LifecycleState where
  phase : Phase
  numPeers : UInt32
  deriving DecidableEq, Repr

/-- Translate a lifecycle state into a status. -/
def mapState (state : LifecycleState) : LightStatus :=
  match state.phase with
  | .connecting => .rpcReady
  | .syncing reached target => .syncing reached target state.numPeers
  | .ready => .ready

theorem mapState_eq_rpcReady_iff {state : LifecycleState} :
    mapState state = .rpcReady ↔ state.phase = .connecting := by
  unfold mapState
  cases state.phase <;> simp

/-! ## What each task does to the status

Each is the closure of a `send_if_modified`: the new status, or none if the status stays. -/

/-- `start`: the endpoint listens. -/
def publish (current : LightStatus) : Option LightStatus :=
  if current = .starting then some .rpcReady else none

/-- The monitor: follow the chain.  `starting` is replaced by `start`. -/
def follow (next current : LightStatus) : Option LightStatus :=
  if current ≠ .starting ∧ current.isTerminal = false ∧ current ≠ next then some next else none

/-- Bring the node to this end, unless it already is terminal. -/
def terminate (last current : LightStatus) : Option LightStatus :=
  if current.isTerminal then none else some last

def fail (reason : String) : LightStatus → Option LightStatus := terminate (.failed reason)

/-- `shutdown`: mark the node as stopped. -/
def markStopped : LightStatus → Option LightStatus := terminate .stopped

/-! ## The node -/

/-- Where a background task is. -/
inductive Task where
  | running
  | finished
  | panicked (reason : String)
  deriving DecidableEq, Repr

/-- The panic of a task, if it ended in one. -/
def Task.failure? : Task → Option String
  | panicked reason => some reason
  | _ => none

/-- Who holds the node. -/
inductive Owner where
  /-- `start` has not returned it yet. -/
  | starting
  | held
  /-- `shutdown` waits for the tasks. -/
  | shuttingDown
  | dropped
  deriving DecidableEq, Repr

/-- The tasks were asked to stop. -/
def Owner.stop : Owner → Bool
  | shuttingDown | dropped => true
  | _ => false

structure LightNode where
  status : LightStatus
  owner : Owner
  /-- What the subscription has for the monitor. -/
  lifecycle : List LifecycleState
  closed : Bool
  monitor : Task
  server : Task
  deriving DecidableEq, Repr

/-- The node as `start` has spawned its tasks. -/
def LightNode.spawned : LightNode := ⟨.starting, .starting, [], false, .running, .running⟩

inductive Event where
  /-- The chain emits a lifecycle state. -/
  | emit (state : LifecycleState)
  | close
  /-- `start` publishes the endpoint and returns. -/
  | publish
  /-- The monitor takes a state, which supersedes so many before it, and follows it. -/
  | handle (superseded : ℕ)
  | monitorStopped
  | monitorPanicked (reason : String)
  | serverStopped
  | serverPanicked
  | shutdown
  | drop
  /-- `shutdown` has waited for the tasks. -/
  | stopped
  deriving DecidableEq, Repr

inductive Observation where
  | changed (status : LightStatus)
  | shutDown (result : Except LightError Unit)

namespace LightNode

/-- Change the status, and notify, if it is modified. -/
def sendIfModified (node : LightNode) (modify : LightStatus → Option LightStatus) :
    LightNode × List Observation :=
  match modify node.status with
  | some next => ({ node with status := next }, [.changed next])
  | none => (node, [])

/-- What `shutdown` returns: the first panic of a task, if there was one. -/
def shutdownResult (node : LightNode) : Except LightError Unit :=
  match node.monitor.failure? <|> node.server.failure? with
  | some failure => .error (.shutdown failure)
  | none => .ok ()

def step (node : LightNode) : Event → Option (LightNode × List Observation)
  | .emit state =>
    if node.closed then none
    else some ({ node with lifecycle := node.lifecycle ++ [state] }, [])
  | .close => if node.closed then none else some ({ node with closed := true }, [])
  | .publish =>
    if node.owner = .starting then some (sendIfModified { node with owner := .held } publish)
    else none
  | .handle superseded =>
    match node.monitor, node.lifecycle.drop superseded with
    | .running, state :: rest =>
      some (sendIfModified { node with lifecycle := rest } (follow (mapState state)))
    | _, _ => none
  | .monitorStopped =>
    if node.monitor = .running ∧ (node.owner.stop ∨ (node.closed ∧ node.lifecycle = [])) then
      some ({ node with monitor := .finished }, [])
    else none
  | .monitorPanicked reason =>
    if node.monitor = .running then some ({ node with monitor := .panicked reason }, [])
    else none
  | .serverStopped =>
    if node.server = .running ∧ node.owner.stop then some ({ node with server := .finished }, [])
    else none
  | .serverPanicked =>
    if node.server = .running then
      some (sendIfModified { node with server := .finished } (fail "RPC server panicked"))
    else none
  | .shutdown =>
    if node.owner = .held then some ({ node with owner := .shuttingDown }, []) else none
  | .drop => if node.owner = .held then some ({ node with owner := .dropped }, []) else none
  | .stopped =>
    if node.owner = .shuttingDown ∧ node.monitor ≠ .running ∧ node.server ≠ .running then
      let modified := sendIfModified { node with owner := .dropped } markStopped
      some (modified.1, modified.2 ++ [.shutDown node.shutdownResult])
    else none

/-- The light node as a machine. -/
def machine : EventMachine LightNode Event Observation := ⟨step⟩

end LightNode

/-! ## What a run was fed

What the status should be is a function of the events alone: the last state emitted, or that the
endpoint is there, if no state was.  The condition under which it is so is one on the events too,
so the two sides of the guarantee do not mention the node. -/

def Event.emitted? : Event → Option LifecycleState
  | .emit state => some state
  | _ => none

/-- The monitor takes a state. -/
def Event.isHandle : Event → Bool
  | .handle _ => true
  | _ => false

/-- The lifecycle states emitted in a run, in their order. -/
def emitted (es : List Event) : List LifecycleState := es.filterMap Event.emitted?

/-- The status that is current once all these states are processed. -/
def currentStatus (states : List LifecycleState) : LightStatus :=
  match states.getLast? with
  | some state => mapState state
  | none => .rpcReady

/-- Nothing was lost: the status is that of the last state emitted, and who waits for a
node that is ready is told so. -/
def UpToDate (es : List Event) (status : LightStatus) : Prop :=
  status = currentStatus (emitted es) ∧
    ((emitted es).getLast?.map LifecycleState.phase = some .ready →
      waitReady status = some (.ok ()))

/-- The monitor takes a state after `start` has published the endpoint. -/
def TakenAfterPublish (es : List Event) : Prop :=
  (es.dropWhile fun e => e ≠ .publish).any Event.isHandle = true

/-- The monitor takes a state after `start` has published the endpoint, or the last state
emitted, if there is one, says that the parachain is connecting. -/
def KeptUp (es : List Event) : Prop :=
  TakenAfterPublish es ∨ ∀ state, (emitted es).getLast? = some state → state.phase = .connecting

instance (es : List Event) : Decidable (TakenAfterPublish es) :=
  inferInstanceAs (Decidable (_ = true))

theorem emitted_snoc (es : List Event) (e : Event) :
    emitted (es ++ [e]) = emitted es ++ e.emitted?.toList := by
  rw [emitted, List.filterMap_append]
  cases h : e.emitted? <;> simp [emitted, h]

theorem dropWhile_eq_nil_of_not_mem {es : List Event} (h : .publish ∉ es) :
    es.dropWhile (fun e => e ≠ .publish) = [] :=
  List.dropWhile_eq_nil_iff.mpr fun _ ha => decide_eq_true fun heq => h (heq ▸ ha)

theorem takenAfterPublish_snoc (es : List Event) (e : Event) :
    TakenAfterPublish (es ++ [e]) ↔
      TakenAfterPublish es ∨ (.publish ∈ es ∧ e.isHandle = true) := by
  unfold TakenAfterPublish
  rw [List.dropWhile_append]
  by_cases hpublish : .publish ∈ es
  · have hne : (es.dropWhile fun e => e ≠ .publish).isEmpty = false := by
      rw [List.isEmpty_eq_false_iff, ne_eq, List.dropWhile_eq_nil_iff]
      intro hall
      exact absurd (hall _ hpublish) (by simp)
    rw [hne]
    simp [hpublish, List.any_append]
  · -- nothing was taken after a publication that has not happened
    rw [dropWhile_eq_nil_of_not_mem hpublish]
    cases e <;> simp [hpublish, Event.isHandle, List.dropWhile]

/-! ## What a step does -/

namespace LightNode

section

variable {node node' : LightNode} {e : Event} {o : List Observation}

theorem sendIfModified_fst (node : LightNode) (modify : LightStatus → Option LightStatus) :
    (node.sendIfModified modify).1 =
      { node with status := (modify node.status).getD node.status } := by
  unfold sendIfModified
  cases modify node.status <;> rfl

/-- An event that is neither a new state, nor `start` publishing, nor the monitor taking a
state. -/
def IsBackground (e : Event) : Prop :=
  e.emitted? = none ∧ e ≠ .publish ∧ e.isHandle = false

/-- What a step does to the status, the owner and the states that wait. -/
inductive Move (node : LightNode) : Event → LightNode → Prop
  | emit (state : LifecycleState) :
    Move node (.emit state) { node with lifecycle := node.lifecycle ++ [state] }
  | publish (howner : node.owner = .starting) :
    Move node .publish
      { node with owner := .held, status := (publish node.status).getD node.status }
  | handle {superseded : ℕ} {state : LifecycleState} {rest : List LifecycleState}
    (htaken : node.lifecycle.drop superseded = state :: rest) :
    Move node (.handle superseded)
      { node with
        lifecycle := rest
        status := (follow (mapState state) node.status).getD node.status }
  | background {e : Event} {node' : LightNode} (hevent : IsBackground e)
    (hlifecycle : node'.lifecycle = node.lifecycle)
    (howner : node'.owner = .starting ↔ node.owner = .starting)
    (hstatus : node'.status = node.status ∨
      (node.status.isTerminal = false ∧ node'.status.isTerminal = true)) :
    Move node e node'

/-- A task that ends at most brings the node to an end. -/
theorem status_sendIfModified_terminate (node : LightNode) {last : LightStatus}
    (hlast : last.isTerminal = true) :
    (node.sendIfModified (terminate last)).1.status = node.status ∨
      (node.status.isTerminal = false ∧
        (node.sendIfModified (terminate last)).1.status.isTerminal = true) := by
  rw [sendIfModified_fst]
  unfold terminate
  split_ifs with hterminal
  · exact .inl rfl
  · exact .inr ⟨Bool.eq_false_iff.mpr hterminal, hlast⟩

theorem move_of_step (h : node.step e = some (node', o)) : Move node e node' := by
  cases e with
  | emit state =>
    simp only [step] at h
    split_ifs at h
    obtain ⟨rfl, -⟩ := Prod.mk.inj (Option.some.inj h)
    exact .emit state
  | publish =>
    simp only [step] at h
    split_ifs at h with howner
    obtain rfl := congrArg Prod.fst (Option.some.inj h)
    rw [sendIfModified_fst]
    exact .publish howner
  | handle superseded =>
    simp only [step] at h
    split at h
    · next state rest _ htaken =>
      obtain rfl := congrArg Prod.fst (Option.some.inj h)
      rw [sendIfModified_fst]
      exact .handle htaken
    · exact absurd h (by simp)
  | serverPanicked =>
    simp only [step] at h
    split_ifs at h
    obtain rfl := congrArg Prod.fst (Option.some.inj h)
    refine .background ⟨rfl, by simp, rfl⟩ ?_ ?_ (status_sendIfModified_terminate _ rfl)
    · rw [sendIfModified_fst]
    · rw [sendIfModified_fst]
  | stopped =>
    simp only [step] at h
    split_ifs at h with hended
    obtain rfl := congrArg Prod.fst (Option.some.inj h)
    refine .background ⟨rfl, by simp, rfl⟩ ?_ ?_ (status_sendIfModified_terminate _ rfl)
    · rw [sendIfModified_fst]
    · rw [sendIfModified_fst, hended.1]
      simp
  | shutdown | drop =>
    simp only [step] at h
    split_ifs at h with howner
    obtain ⟨rfl, -⟩ := Prod.mk.inj (Option.some.inj h)
    exact .background ⟨rfl, by simp, rfl⟩ rfl (by simp [howner]) (.inl rfl)
  | close | monitorStopped | monitorPanicked | serverStopped =>
    simp only [step] at h
    split_ifs at h
    obtain ⟨rfl, -⟩ := Prod.mk.inj (Option.some.inj h)
    exact .background ⟨rfl, by simp, rfl⟩ rfl .rfl (.inl rfl)

end

end LightNode

/-! ## The invariant

Two cases matter, before and after `start` has published the endpoint.  Before, the status is
`starting` and the states that are taken are gone.  After, the first state that is taken puts the
status right, and each one after it keeps it so; until then it is what `start` has set.  In every
case the states that were emitted are those taken, or passed over, and those that wait. -/

theorem TakenAfterPublish.published {es : List Event} (h : TakenAfterPublish es) :
    .publish ∈ es := by
  by_contra hpublish
  have hempty : es.dropWhile (fun e => e ≠ .publish) = [] :=
    dropWhile_eq_nil_of_not_mem hpublish
  rw [TakenAfterPublish, hempty] at h
  exact absurd h (by simp)

theorem currentStatus_snoc (states : List LifecycleState) (state : LifecycleState) :
    currentStatus (states ++ [state]) = mapState state := by
  rw [currentStatus, List.getLast?_concat]

/-- The status once the monitor has followed a state. -/
theorem follow_getD {next current : LightStatus} (hstarting : current ≠ .starting)
    (hterminal : current.isTerminal = false) : (follow next current).getD current = next := by
  unfold follow
  by_cases hnext : current = next
  · simp [hnext]
  · rw [if_pos ⟨hstarting, hterminal, hnext⟩]
    rfl

theorem follow_starting (next : LightStatus) : follow next .starting = none := by
  simp [follow]

/-- Where a task may change the status at all, the node has not come to an end. -/
theorem follow_of_isTerminal {next current : LightStatus} (h : current.isTerminal = true) :
    follow next current = none := by
  simp [follow, h]

theorem publish_of_isTerminal {current : LightStatus} (h : current.isTerminal = true) :
    publish current = none := by
  refine if_neg ?_
  rintro rfl
  exact absurd h (by simp [LightStatus.isTerminal])

/-- What the run so far says about the node: which states the monitor still has to take,
and, unless the node came to an end, its status. -/
structure Tracks (es : List Event) (node : LightNode) : Prop where
  published_iff : node.owner ≠ .starting ↔ .publish ∈ es
  starting : node.owner = .starting → node.status.isTerminal = false → node.status = .starting
  listening : node.owner ≠ .starting → node.status ≠ .starting
  /-- No state was taken since the endpoint was published: those before are gone. -/
  discarded : node.owner ≠ .starting → node.status.isTerminal = false →
    ¬ TakenAfterPublish es → node.status = .rpcReady
  /-- What was emitted is taken or waits, and the last state taken is followed. -/
  followed : ∃ taken, emitted es = taken ++ node.lifecycle ∧
    (node.status.isTerminal = false → TakenAfterPublish es → node.status = currentStatus taken)

namespace Tracks

variable {es : List Event} {node node' : LightNode} {e : Event}

theorem start : Tracks [] .spawned where
  published_iff := by simp [LightNode.spawned]
  starting _ _ := rfl
  listening howner := absurd rfl howner
  discarded howner := absurd rfl howner
  followed := ⟨[], rfl, fun _ htaken => absurd htaken (by simp [TakenAfterPublish])⟩

theorem emit (i : Tracks es node) (state : LifecycleState) :
    Tracks (es ++ [.emit state]) { node with lifecycle := node.lifecycle ++ [state] } := by
  have htaken : TakenAfterPublish (es ++ [.emit state]) ↔ TakenAfterPublish es := by
    rw [takenAfterPublish_snoc]
    simp [Event.isHandle]
  refine ⟨by simp [i.published_iff], i.starting, i.listening, ?_, ?_⟩
  · rw [htaken]
    exact i.discarded
  · obtain ⟨taken, hemitted, hfollowed⟩ := i.followed
    refine ⟨taken, ?_, fun hterminal ht => hfollowed hterminal (htaken.mp ht)⟩
    rw [emitted_snoc, hemitted, List.append_assoc]
    rfl

/-- `start` publishes the endpoint. -/
theorem publish (i : Tracks es node) (howner : node.owner = .starting) :
    Tracks (es ++ [.publish])
      { node with
        owner := .held
        status := (Light.publish node.status).getD node.status } := by
  have hbefore : .publish ∉ es := fun h => i.published_iff.mpr h howner
  have hnot : ¬ TakenAfterPublish (es ++ [.publish]) := by
    rw [takenAfterPublish_snoc]
    rintro (h | ⟨h, -⟩)
    · exact hbefore h.published
    · exact hbefore h
  have hstatus : (node.status.isTerminal = true ∧
        (Light.publish node.status).getD node.status = node.status) ∨
      (Light.publish node.status).getD node.status = .rpcReady := by
    by_cases hterminal : node.status.isTerminal = true
    · exact .inl ⟨hterminal, by rw [publish_of_isTerminal hterminal]; rfl⟩
    · rw [i.starting howner (Bool.eq_false_iff.mpr hterminal)]
      exact .inr rfl
  refine ⟨by simp, fun h => absurd h (by simp), fun _ => ?_, fun _ hterminal _ => ?_, ?_⟩
  · rcases hstatus with ⟨hterminal, heq⟩ | heq
    · show (Light.publish node.status).getD node.status ≠ .starting
      rw [heq]
      intro hstarting
      rw [hstarting] at hterminal
      exact absurd hterminal (by simp [LightStatus.isTerminal])
    · show (Light.publish node.status).getD node.status ≠ .starting
      rw [heq]
      simp
  · rcases hstatus with ⟨hended, heq⟩ | heq
    · change ((Light.publish node.status).getD node.status).isTerminal = false at hterminal
      rw [heq, hended] at hterminal
      exact absurd hterminal (by simp)
    · exact heq
  · obtain ⟨taken, hemitted, -⟩ := i.followed
    refine ⟨taken, ?_, fun _ htaken => absurd htaken hnot⟩
    rw [emitted_snoc, hemitted]
    exact List.append_nil _

theorem handle (i : Tracks es node) {superseded : ℕ} {state : LifecycleState}
    {rest : List LifecycleState} (hdrop : node.lifecycle.drop superseded = state :: rest) :
    Tracks (es ++ [.handle superseded])
      { node with
        lifecycle := rest
        status := (follow (mapState state) node.status).getD node.status } := by
  have htaken : TakenAfterPublish (es ++ [.handle superseded]) ↔ node.owner ≠ .starting := by
    rw [takenAfterPublish_snoc, i.published_iff]
    simp only [Event.isHandle, and_true, or_iff_right_iff_imp]
    exact TakenAfterPublish.published
  have hsame : node.owner = .starting →
      (follow (mapState state) node.status).getD node.status = node.status := by
    intro howner
    by_cases hterminal : node.status.isTerminal = true
    · rw [follow_of_isTerminal hterminal]
      rfl
    · rw [i.starting howner (Bool.eq_false_iff.mpr hterminal), follow_starting]
      rfl
  have hended : ((follow (mapState state) node.status).getD node.status).isTerminal = false →
      node.status.isTerminal = false := by
    intro h
    by_contra hterminal
    rw [Bool.not_eq_false] at hterminal
    rw [follow_of_isTerminal hterminal, Option.getD_none, hterminal] at h
    exact absurd h (by simp)
  refine ⟨by simp [i.published_iff], ?_, ?_, ?_, ?_⟩
  · intro howner hterminal
    show (follow (mapState state) node.status).getD node.status = .starting
    rw [hsame howner]
    exact i.starting howner (hended hterminal)
  · intro howner
    show (follow (mapState state) node.status).getD node.status ≠ .starting
    by_cases hterminal : node.status.isTerminal = true
    · rw [follow_of_isTerminal hterminal]
      exact i.listening howner
    · rw [follow_getD (i.listening howner) (Bool.eq_false_iff.mpr hterminal)]
      unfold mapState
      cases state.phase <;> simp
  · exact fun howner _ hnot => absurd (htaken.mpr howner) hnot
  · obtain ⟨taken, hemitted, -⟩ := i.followed
    refine ⟨taken ++ node.lifecycle.take superseded ++ [state], ?_, fun hterminal ht => ?_⟩
    · calc emitted (es ++ [.handle superseded])
          = emitted es := by
            rw [emitted_snoc]
            exact List.append_nil _
        _ = taken ++ (node.lifecycle.take superseded ++ node.lifecycle.drop superseded) := by
            rw [List.take_append_drop, hemitted]
        _ = taken ++ node.lifecycle.take superseded ++ [state] ++ rest := by
            rw [hdrop]
            simp
    · rw [currentStatus_snoc]
      exact follow_getD (i.listening (htaken.mp ht)) (hended hterminal)

theorem background (i : Tracks es node) (hevent : LightNode.IsBackground e)
    (hlifecycle : node'.lifecycle = node.lifecycle)
    (howner : node'.owner = .starting ↔ node.owner = .starting)
    (hstatus : node'.status = node.status ∨
      (node.status.isTerminal = false ∧ node'.status.isTerminal = true)) :
    Tracks (es ++ [e]) node' := by
  obtain ⟨hemitted?, hpublish, hhandle⟩ := hevent
  have htaken : TakenAfterPublish (es ++ [e]) ↔ TakenAfterPublish es := by
    rw [takenAfterPublish_snoc, hhandle]
    simp
  have hsame : node'.status.isTerminal = false → node'.status = node.status := by
    intro hterminal
    rcases hstatus with heq | ⟨-, hended⟩
    · exact heq
    · rw [hterminal] at hended
      exact absurd hended (by simp)
  refine ⟨?_, ?_, ?_, ?_, ?_⟩
  · rw [ne_eq, howner, List.mem_append, ← ne_eq, i.published_iff]
    simp [Ne.symm hpublish]
  · intro howner' hterminal
    have heq := hsame hterminal
    rw [heq] at hterminal ⊢
    exact i.starting (howner.mp howner') hterminal
  · intro howner' hstarting
    have hterminal : node'.status.isTerminal = false := by rw [hstarting]; rfl
    rw [hsame hterminal] at hstarting
    exact i.listening (fun h => howner' (howner.mpr h)) hstarting
  · intro howner' hterminal hnot
    have heq := hsame hterminal
    rw [heq] at hterminal ⊢
    exact i.discarded (fun h => howner' (howner.mpr h)) hterminal fun h => hnot (htaken.mpr h)
  · obtain ⟨taken, hemitted, hfollowed⟩ := i.followed
    refine ⟨taken, ?_, fun hterminal ht => ?_⟩
    · rw [emitted_snoc, hemitted?, hlifecycle, hemitted]
      exact List.append_nil _
    · have heq := hsame hterminal
      rw [heq] at hterminal ⊢
      exact hfollowed hterminal (htaken.mp ht)

theorem step (i : Tracks es node) (hmove : LightNode.Move node e node') :
    Tracks (es ++ [e]) node' := by
  cases hmove with
  | emit state => exact i.emit state
  | publish howner => exact i.publish howner
  | handle hdrop => exact i.handle hdrop
  | background hevent hlifecycle howner hstatus =>
    exact i.background hevent hlifecycle howner hstatus

theorem of_exec {h : List Observation}
    (hrun : LightNode.machine.exec .spawned es = some (node, h)) : Tracks es node :=
  EventMachine.exec_induction (P := fun es _ node => Tracks es node) start
    (fun _ _ _ _ _ _ _ i hstep => i.step (LightNode.move_of_step hstep)) hrun

/-- Once everything emitted is processed, the status says whether a state was taken since
the endpoint was published. -/
theorem upToDate_iff (i : Tracks es node) (howner : node.owner ≠ .starting)
    (hprocessed : node.lifecycle = []) (hterminal : node.status.isTerminal = false) :
    UpToDate es node.status ↔ KeptUp es := by
  obtain ⟨taken, hemitted, hfollowed⟩ := i.followed
  rw [hprocessed, List.append_nil] at hemitted
  have hready : node.status = currentStatus (emitted es) →
      UpToDate es node.status := by
    refine fun hstatus => ⟨hstatus, fun hphase => ?_⟩
    obtain ⟨state, hlast, hready⟩ := Option.map_eq_some_iff.mp hphase
    rw [hstatus, currentStatus, hlast]
    simp only [mapState, hready]
    rfl
  by_cases htaken : TakenAfterPublish es
  · refine iff_of_true (hready ?_) (.inl htaken)
    rw [hemitted]
    exact hfollowed hterminal htaken
  · have hstatus := i.discarded howner hterminal htaken
    constructor
    · rintro ⟨hcurrent, -⟩
      refine .inr fun state hlast => mapState_eq_rpcReady_iff.mp ?_
      rw [currentStatus, hlast, hstatus] at hcurrent
      exact hcurrent.symm
    · rintro (h | hconnecting)
      · exact absurd h htaken
      · refine hready ?_
        rw [hstatus, currentStatus]
        cases hlast : (emitted es).getLast? with
        | none => rfl
        | some state => exact (mapState_eq_rpcReady_iff.mpr (hconnecting state hlast)).symm

end Tracks

/-! ## What comes to an end stays so -/

/-- **One step** leaves a terminal status alone. -/
theorem status_step_of_isTerminal {node node' : LightNode} {e : Event}
    (hmove : LightNode.Move node e node') (hterminal : node.status.isTerminal = true) :
    node'.status = node.status := by
  cases hmove with
  | emit state => rfl
  | publish howner =>
    show (publish node.status).getD node.status = node.status
    rw [publish_of_isTerminal hterminal]
    rfl
  | handle hdrop =>
    show (follow _ node.status).getD node.status = node.status
    rw [follow_of_isTerminal hterminal]
    rfl
  | background _ _ _ hstatus =>
    rcases hstatus with heq | ⟨hnot, -⟩
    · exact heq
    · rw [hterminal] at hnot
      exact absurd hnot (by simp)

/-- **Every run** that goes on from a terminal status keeps it: whoever was told that the node
has come to an end need not ask again. -/
theorem status_of_isTerminal {node node' : LightNode} {es : List Event} {h : List Observation}
    (hrun : LightNode.machine.exec node es = some (node', h))
    (hterminal : node.status.isTerminal = true) : node'.status = node.status :=
  EventMachine.exec_induction (P := fun _ _ node' => node'.status = node.status) rfl
    (fun _ _ _ _ _ _ _ heq hstep =>
      (status_step_of_isTerminal (LightNode.move_of_step hstep) (heq ▸ hterminal)).trans heq) hrun

/-! ## The guarantee -/

/-- **The status loses no update, if the monitor keeps up.**  In every run, once `start` has
returned and every state emitted is processed, and the node did not come to an end, the
status is that of the last state exactly if a state was taken after `start` published the
endpoint, or nothing but connecting was to be reported.  A terminal status is never left. -/
theorem upToDate_iff_keptUp (es : List Event) (node : LightNode) (h : List Observation)
    (hrun : LightNode.machine.exec .spawned es = some (node, h)) :
    (node.owner ≠ .starting → node.lifecycle = [] → node.status.isTerminal = false →
      (UpToDate es node.status ↔ KeptUp es)) ∧
    ∀ es' node' h', LightNode.machine.exec node es' = some (node', h') →
      node.status.isTerminal = true → node'.status = node.status :=
  ⟨(Tracks.of_exec hrun).upToDate_iff, fun _ _ _ => status_of_isTerminal⟩

/-- The monitor takes a state before the endpoint is published, and two after. -/
def synchronizing : List Event :=
  [.emit ⟨.connecting, 0⟩, .handle 0, .publish, .emit ⟨.syncing 10 90, 3⟩, .handle 0,
    .emit ⟨.syncing 90 90, 3⟩, .emit ⟨.ready, 3⟩, .handle 1]

theorem upToDate_iff_keptUp_synchronizing :
    ∃ node h, LightNode.machine.exec .spawned synchronizing = some (node, h) ∧
      UpToDate synchronizing node.status := by
  have hrun : (LightNode.machine.exec .spawned synchronizing).map Prod.fst =
      some ⟨.ready, .held, [], false, .running, .running⟩ := by
    decide +kernel
  obtain ⟨⟨node, h⟩, hexec, rfl⟩ := Option.map_eq_some_iff.mp hrun
  exact ⟨_, h, hexec, ((upToDate_iff_keptUp synchronizing _ h hexec).1 (by simp) rfl rfl).mpr
    (.inl (by decide +kernel))⟩

/-- The node is ready before the endpoint is published, and stays so. -/
def readyBeforePublish : List Event := [.emit ⟨.ready, 3⟩, .handle 0, .publish]

/-- The status says that nothing is known, and who waits for the node goes on waiting. -/
theorem not_upToDate_readyBeforePublish :
    ∃ node h, LightNode.machine.exec .spawned readyBeforePublish = some (node, h) ∧
      node.owner = .held ∧ node.lifecycle = [] ∧ node.status = .rpcReady ∧
      waitReady node.status = none ∧ ¬ UpToDate readyBeforePublish node.status := by
  have hrun : (LightNode.machine.exec .spawned readyBeforePublish).map Prod.fst =
      some ⟨.rpcReady, .held, [], false, .running, .running⟩ := by
    decide +kernel
  obtain ⟨⟨node, h⟩, hexec, rfl⟩ := Option.map_eq_some_iff.mp hrun
  refine ⟨_, h, hexec, rfl, rfl, rfl, rfl, fun hupToDate => ?_⟩
  exact absurd hupToDate.1 (by decide +kernel)

end Light
end Robins
