import Robins.Anchor.Model
import Robins.Lib.EventMachine

/-!
# The run loop of the anchor

`run` loads a page of ready batches and anchors them one after the other: submit the stored
bytes, then forget the batch.  Each of the three operations is retried by `retry_transient`, which
looks at the shutdown signal before an attempt, gives an attempt in flight some time after
shutdown, and waits between attempts.

## The machine

`Control` says which operation is being retried and where in that loop it is; a step takes one
event, which is an answer of the store or of the chain, the end of a wait, or the shutdown signal.
The batcher commits new batches at any moment, and the process may be started again at any moment,
after a crash or after `run` has returned; the tables are what survives.

A confirmation is a transaction of its own task: once issued it may take effect while the attempt
is in flight, although the attempt fails, and after the attempt was given up, until the process
ends.  So the state has all confirmations that were issued, apart from the control.

## The moves

`Move` lists the steps with the conditions under which each is taken, and `move_of_anchorStep`
that there are no others.  All that is proved of the anchor starts from there: the delivery
(`Anchor.Delivery`), the waits (`Anchor.Backoff`) and the shutdown (`Anchor.Shutdown`).
-/

namespace Robins
namespace Anchor

open BatchStore

set_option linter.dupNamespace false

/-- Most ready batches held in memory. -/
def readyPage : ℕ := 4

/-! ## State -/

inductive ShutdownSignal where
  | running
  | triggered
  /-- Its controller is gone without a request. -/
  | dropped
  deriving DecidableEq, Repr

/-- `is_triggered`: shutdown was requested. -/
def ShutdownSignal.isTriggered : ShutdownSignal → Bool
  | .triggered => true
  | _ => false

/-- `recv` resolves: shutdown was requested, or nobody is left to request it. -/
def ShutdownSignal.received : ShutdownSignal → Bool
  | .running => false
  | _ => true

/-- An operation under retry, with the batches of the page that follow. -/
inductive Task where
  | load
  | submit (batch : StoredBatch) (rest : List StoredBatch)
  | confirm (batch : StoredBatch) (rest : List StoredBatch)
  deriving DecidableEq

inductive Control where
  | check (task : Task) (attempt : UInt32)
  | running (task : Task) (attempt : UInt32)
  | backoff (task : Task) (attempt : UInt32) (delay : Duration)
  /-- Nothing is ready. -/
  | idle
  /-- `run` returned `Ok`. -/
  | returned
  /-- `run` returned an error, for this batch. -/
  | failed (batch : StoredBatch) (error : AnchorError)
  deriving DecidableEq

/-- The store and one process that anchors its batches. -/
structure State where
  tables : Tables
  shutdown : ShutdownSignal
  /-- Confirmations issued by this process. -/
  issued : List BatchId
  control : Control

/-- A process that begins to run. -/
def State.start (tables : Tables) : State := ⟨tables, .running, [], .check .load 0⟩

/-! ## Events and observations -/

/-- What the world contributes to a step. -/
inductive Event where
  | commit (createdAt : Timestamp) (consumed : List MessageId) (prepared : List PreparedBatch)
  | trigger
  | dropController
  | attempt
  /-- The page is read. -/
  | loaded
  | target (result : Except AnchorError Confirmation)
  /-- The batch is removed and the anchor told. -/
  | confirmed
  /-- An operation of the store fails. -/
  | storeFailed (error : StoreError)
  /-- A confirmation issued takes effect. -/
  | transaction (id : BatchId)
  | drainExpired
  | slept
  /-- There may be new batches. -/
  | notified
  | stop
  | restart

inductive Observation where
  | created (batch : StoredBatch)
  /-- `set_payload` is called for a batch. -/
  | submitted (id : BatchId) (payload : Bytes)
  /-- `set_payload` returned `Ok`. -/
  | finalized (id : BatchId) (payload : Bytes)
  | removed (batch : StoredBatch)
  | stopped (batch : StoredBatch) (error : AnchorError)
  | restarted
  deriving DecidableEq

/-! ## Steps -/

/-- The batches of a commit, as they are stored. -/
def committed (createdAt : Timestamp) (ids : List BatchId) (prepared : List PreparedBatch) :
    List Observation :=
  List.zipWith (fun id batch => .created ⟨id, createdAt, batch.messageCount, batch.payload⟩) ids
    prepared

/-- What a confirmation removes from the tables. -/
def removal (tables : Tables) (id : BatchId) : List Observation :=
  match tables.readyBatches.get? id with
  | none => []
  | some value =>
    match decodeBatch id value with
    | .error _ => []
    | .ok batch => [.removed batch]

/-- The next batch of the page, or the next page. -/
def anchorPage : List StoredBatch → Control
  | [] => .check .load 0
  | batch :: rest => .check (.submit batch rest) 0

/-- What `retry_transient` does with a transient error. -/
def Anchor.retryAfter (anchor : Anchor) (task : Task) (attempt : UInt32) : Control :=
  .backoff task (if attempt = UInt32.ofNat (2 ^ 32 - 1) then attempt else attempt + 1)
    (anchor.retry.delay attempt)

/-- What `retry_transient` does with an error of a submission. -/
def Anchor.submissionFailed (anchor : Anchor) (batch : StoredBatch) (rest : List StoredBatch)
    (attempt : UInt32) (error : AnchorError) : Control × List Observation :=
  if error.isTransient then (anchor.retryAfter (.submit batch rest) attempt, [])
  else (.failed batch error, [.stopped batch error])

/-- Make an attempt, unless shutdown was requested. -/
def Anchor.attempt (anchor : Anchor) (s : State) (task : Task) (attempt : UInt32) :
    State × List Observation :=
  if s.shutdown.isTriggered then ({ s with control := .returned }, [])
  else
    match task with
    | .load => ({ s with control := .running .load attempt }, [])
    | .submit batch rest =>
      match anchor.refuse batch with
      | some error =>
        let (control, o) := anchor.submissionFailed batch rest attempt error
        ({ s with control }, o)
      | none =>
        ({ s with control := .running (.submit batch rest) attempt },
          [.submitted batch.id batch.payload])
    | .confirm batch rest =>
      ({ s with issued := batch.id :: s.issued, control := .running (.confirm batch rest) attempt },
        [])

def anchorStep (anchor : Anchor) (s : State) (e : Event) : Option (State × List Observation) :=
  match e, s.control with
  | .commit createdAt consumed prepared, _ =>
    match commitBatches s.tables createdAt consumed prepared with
    | .error _ => some (s, [])
    | .ok (ids, tables) => some ({ s with tables }, committed createdAt ids prepared)
  | .trigger, _ =>
    if s.shutdown = .dropped then none else some ({ s with shutdown := .triggered }, [])
  | .dropController, _ =>
    some ({ s with shutdown := if s.shutdown.isTriggered then .triggered else .dropped }, [])
  | .transaction id, _ =>
    if id ∈ s.issued then
      some ({ s with tables := confirmBatch s.tables id }, removal s.tables id)
    else none
  | .restart, _ => some (.start s.tables, [.restarted])
  | .attempt, .check task attempt => some (anchor.attempt s task attempt)
  | .loaded, .running .load attempt =>
    match readyBatches s.tables readyPage with
    | .error _ => some ({ s with control := anchor.retryAfter .load attempt }, [])
    | .ok [] => some ({ s with control := .idle }, [])
    | .ok (batch :: rest) => some ({ s with control := anchorPage (batch :: rest) }, [])
  | .target (.ok _), .running (.submit batch rest) _ =>
    some ({ s with control := .check (.confirm batch rest) 0 },
      [.finalized batch.id batch.payload])
  | .target (.error error), .running (.submit batch rest) attempt =>
    let (control, o) := anchor.submissionFailed batch rest attempt error
    some ({ s with control }, o)
  | .confirmed, .running (.confirm batch rest) _ =>
    some ({ s with tables := confirmBatch s.tables batch.id, control := anchorPage rest },
      removal s.tables batch.id)
  | .storeFailed _, .running .load attempt =>
    some ({ s with control := anchor.retryAfter .load attempt }, [])
  | .storeFailed _, .running (.confirm batch rest) attempt =>
    some ({ s with control := anchor.retryAfter (.confirm batch rest) attempt }, [])
  | .drainExpired, .running _ _ =>
    if s.shutdown.received then some ({ s with control := .returned }, []) else none
  | .slept, .backoff task attempt _ => some ({ s with control := .check task attempt }, [])
  | .notified, .idle => some ({ s with control := .check .load 0 }, [])
  | .stop, .backoff _ _ _ | .stop, .idle =>
    if s.shutdown.received then some ({ s with control := .returned }, []) else none
  | _, _ => none

/-- A store and the anchor on it, as a machine. -/
def anchorMachine (anchor : Anchor) : EventMachine State Event Observation := ⟨anchorStep anchor⟩

/-! ## What a step can do -/

/-- The operation under retry. -/
def Control.task? : Control → Option Task
  | .check task _ | .running task _ | .backoff task _ _ => some task
  | .idle | .returned | .failed _ _ => none

/-- The steps of the anchor, each with the conditions under which it is taken. -/
inductive Move (anchor : Anchor) (s : State) : Event → State → List Observation → Prop
  /-- A signal, or a commit that fails. -/
  | signal {e : Event} (shutdown : ShutdownSignal) : Move anchor s e { s with shutdown } []
  | commit {createdAt : Timestamp} {consumed : List MessageId} {prepared : List PreparedBatch}
    {ids : List BatchId} {tables : Tables}
    (hcommit : commitBatches s.tables createdAt consumed prepared = .ok (ids, tables)) :
    Move anchor s (.commit createdAt consumed prepared) { s with tables }
      (committed createdAt ids prepared)
  | transaction {id : BatchId} (hid : id ∈ s.issued) :
    Move anchor s (.transaction id) { s with tables := confirmBatch s.tables id }
      (removal s.tables id)
  | restart : Move anchor s .restart (.start s.tables) [.restarted]
  /-- Within one retry loop; only a failure of the store delays a confirmation. -/
  | retry {e : Event} {control : Control} {task : Task} (htask : s.control.task? = some task)
    (htask' : control.task? = some task)
    (hdelay : ∀ batch rest attempt delay, control = .backoff (.confirm batch rest) attempt delay →
      ∃ error, e = .storeFailed error) :
    Move anchor s e { s with control } []
  /-- Shutdown is noticed before an attempt. -/
  | refused {task : Task} {attempt : UInt32} (hcontrol : s.control = .check task attempt)
    (htriggered : s.shutdown.isTriggered = true) :
    Move anchor s .attempt { s with control := .returned } []
  /-- The time of an attempt in flight is over. -/
  | drained {task : Task} {attempt : UInt32} (hcontrol : s.control = .running task attempt)
    (hreceived : s.shutdown.received = true) :
    Move anchor s .drainExpired { s with control := .returned } []
  /-- Shutdown is noticed between attempts, or when nothing is ready. -/
  | stop (hcontrol : s.control = .idle ∨
      ∃ task attempt delay, s.control = .backoff task attempt delay) :
    Move anchor s .stop { s with control := .returned } []
  | sleep {attempt : UInt32} (hcontrol : s.control = .running .load attempt) :
    Move anchor s .loaded { s with control := .idle } []
  | wake (hcontrol : s.control = .idle) :
    Move anchor s .notified { s with control := .check .load 0 } []
  | page {attempt : UInt32} {batch : StoredBatch} {rest : List StoredBatch}
    (hcontrol : s.control = .running .load attempt)
    (hload : readyBatches s.tables readyPage = .ok (batch :: rest)) :
    Move anchor s .loaded { s with control := anchorPage (batch :: rest) } []
  | submit {attempt : UInt32} {batch : StoredBatch} {rest : List StoredBatch}
    (hcontrol : s.control = .check (.submit batch rest) attempt) :
    Move anchor s .attempt { s with control := .running (.submit batch rest) attempt }
      [.submitted batch.id batch.payload]
  | finalize {attempt : UInt32} {batch : StoredBatch} {rest : List StoredBatch}
    {confirmation : Confirmation} (hcontrol : s.control = .running (.submit batch rest) attempt) :
    Move anchor s (.target (.ok confirmation))
      { s with control := .check (.confirm batch rest) 0 } [.finalized batch.id batch.payload]
  | fail {e : Event} {batch : StoredBatch} {rest : List StoredBatch} {error : AnchorError}
    (htask : s.control.task? = some (.submit batch rest)) :
    Move anchor s e { s with control := .failed batch error } [.stopped batch error]
  | issue {attempt : UInt32} {batch : StoredBatch} {rest : List StoredBatch}
    (hcontrol : s.control = .check (.confirm batch rest) attempt) :
    Move anchor s .attempt
      { s with
        issued := batch.id :: s.issued
        control := .running (.confirm batch rest) attempt } []
  | confirm {attempt : UInt32} {batch : StoredBatch} {rest : List StoredBatch}
    (hcontrol : s.control = .running (.confirm batch rest) attempt) :
    Move anchor s .confirmed
      { s with tables := confirmBatch s.tables batch.id, control := anchorPage rest }
      (removal s.tables batch.id)

/-- A failed submission is retried or ends the run. -/
theorem move_of_submissionFailed {anchor : Anchor} {s : State} {e : Event} {batch : StoredBatch}
    {rest : List StoredBatch} (htask : s.control.task? = some (.submit batch rest))
    (attempt : UInt32) (error : AnchorError) :
    Move anchor s e { s with control := (anchor.submissionFailed batch rest attempt error).1 }
      (anchor.submissionFailed batch rest attempt error).2 := by
  unfold Anchor.submissionFailed
  split_ifs
  · exact .retry htask rfl (by simp [Anchor.retryAfter])
  · exact .fail htask

theorem move_of_attempt {anchor : Anchor} {s : State} {task : Task} {attempt : UInt32}
    (hcontrol : s.control = .check task attempt) :
    Move anchor s .attempt (anchor.attempt s task attempt).1 (anchor.attempt s task attempt).2 := by
  have htask : s.control.task? = some task := by rw [hcontrol]; rfl
  unfold Anchor.attempt
  split_ifs with htriggered
  · exact .refused hcontrol htriggered
  · cases task with
    | load => exact .retry htask rfl (by simp)
    | submit batch rest =>
      dsimp only
      split
      · exact move_of_submissionFailed htask attempt _
      · exact .submit hcontrol
    | confirm batch rest => exact .issue hcontrol

/-- **Every step is one of the moves.**  What is proved of steps is proved by cases on `Move`,
and the step function is not unfolded again. -/
theorem move_of_anchorStep {anchor : Anchor} {s s' : State} {e : Event} {o : List Observation}
    (hstep : anchorStep anchor s e = some (s', o)) : Move anchor s e s' o := by
  unfold anchorStep at hstep
  split at hstep
  · next createdAt consumed prepared =>
    split at hstep
    · obtain ⟨rfl, rfl⟩ := Prod.mk.inj (Option.some.inj hstep)
      exact .signal s.shutdown
    · next ids tables hcommit =>
      obtain ⟨rfl, rfl⟩ := Prod.mk.inj (Option.some.inj hstep)
      exact .commit hcommit
  · split_ifs at hstep
    obtain ⟨rfl, rfl⟩ := Prod.mk.inj (Option.some.inj hstep)
    exact .signal .triggered
  · obtain ⟨rfl, rfl⟩ := Prod.mk.inj (Option.some.inj hstep)
    exact .signal _
  · split_ifs at hstep with hid
    obtain ⟨rfl, rfl⟩ := Prod.mk.inj (Option.some.inj hstep)
    exact .transaction hid
  · obtain ⟨rfl, rfl⟩ := Prod.mk.inj (Option.some.inj hstep)
    exact .restart
  · next task attempt hcontrol =>
    obtain ⟨rfl, rfl⟩ := Prod.mk.inj (Option.some.inj hstep)
    exact move_of_attempt hcontrol
  · next attempt hcontrol =>
    have htask : s.control.task? = some .load := by rw [hcontrol]; rfl
    split at hstep
    · obtain ⟨rfl, rfl⟩ := Prod.mk.inj (Option.some.inj hstep)
      exact .retry htask rfl (by simp [Anchor.retryAfter])
    · obtain ⟨rfl, rfl⟩ := Prod.mk.inj (Option.some.inj hstep)
      exact .sleep hcontrol
    · next batch rest hload =>
      obtain ⟨rfl, rfl⟩ := Prod.mk.inj (Option.some.inj hstep)
      exact .page hcontrol hload
  · next confirmation batch rest attempt hcontrol =>
    obtain ⟨rfl, rfl⟩ := Prod.mk.inj (Option.some.inj hstep)
    exact .finalize hcontrol
  · next error batch rest attempt hcontrol =>
    obtain ⟨rfl, rfl⟩ := Prod.mk.inj (Option.some.inj hstep)
    exact move_of_submissionFailed (by rw [hcontrol]; rfl) attempt error
  · next batch rest attempt hcontrol =>
    obtain ⟨rfl, rfl⟩ := Prod.mk.inj (Option.some.inj hstep)
    exact .confirm hcontrol
  · next attempt hcontrol =>
    obtain ⟨rfl, rfl⟩ := Prod.mk.inj (Option.some.inj hstep)
    have htask : s.control.task? = some .load := by rw [hcontrol]; rfl
    exact .retry htask rfl (by simp [Anchor.retryAfter])
  · next error batch rest attempt hcontrol =>
    obtain ⟨rfl, rfl⟩ := Prod.mk.inj (Option.some.inj hstep)
    have htask : s.control.task? = some (.confirm batch rest) := by rw [hcontrol]; rfl
    exact .retry htask rfl
      fun _ _ _ _ _ => ⟨error, rfl⟩
  · next task attempt hcontrol =>
    split_ifs at hstep with hreceived
    obtain ⟨rfl, rfl⟩ := Prod.mk.inj (Option.some.inj hstep)
    exact .drained hcontrol hreceived
  · next task attempt delay hcontrol =>
    obtain ⟨rfl, rfl⟩ := Prod.mk.inj (Option.some.inj hstep)
    have htask : s.control.task? = some task := by rw [hcontrol]; rfl
    exact .retry htask rfl (by simp)
  · next hcontrol =>
    obtain ⟨rfl, rfl⟩ := Prod.mk.inj (Option.some.inj hstep)
    exact .wake hcontrol
  · next task attempt delay hcontrol =>
    split_ifs at hstep
    obtain ⟨rfl, rfl⟩ := Prod.mk.inj (Option.some.inj hstep)
    exact .stop (.inr ⟨task, attempt, delay, hcontrol⟩)
  · next hcontrol =>
    split_ifs at hstep
    obtain ⟨rfl, rfl⟩ := Prod.mk.inj (Option.some.inj hstep)
    exact .stop (.inl hcontrol)
  · exact absurd hstep (by simp)

end Anchor
end Robins
