import Robins.Batcher.Deadline
import Robins.Batcher.Draining

/-!
# The run loop of the batcher

`run` flushes what is due, computes when it has to look again, and waits: for that moment, for a
signal, for the tick of the gauges, or for shutdown, after which it flushes the rest.  The durable
sink stores a message first and signals afterwards, and between the two the loop may look, go to
sleep or wake up.  The anchor removes batches meanwhile.  The signal is a permit that waits for the
loop if the loop does not wait for it.

There are two clocks.  Deadlines are instants, which only grow; the age of a message is measured
by the wall clock, and `wall` says what it shows at an instant.

## Nothing is overlooked

When the loop waits, it has seen all pending messages and they make no batch, or it will be woken.
`Settled` is the first case: the pending messages are one open batch, and the deadline is when the
first of them is due.  `Loop.Signalled` is the second: a signal is stored, or a sink is about to
give one.  `Watched` says that one of the two holds, unless a pass has failed, and each move keeps
it.  A push leads from the first case to the second, and only a look at the store back.

## The guarantee

Whatever the loop does to the store is what the store in use may do (`gateway_exec`), so
conservation holds of its runs too.  `Attentive` adds what the loop owes the messages.  No signal is
lost; while the loop waits the first pending message is not over age, if the wall clock is not
faster than the instants; and after a final flush that succeeded nothing is left.  It says nothing
of the age of later messages, since a flush does not look at it (`Batcher.Deadline`).
-/

namespace Robins
namespace Batcher

open BatchStore Protocol

/-- Back-off before retrying after a store failure. -/
def storeRetryDelay : Duration := Duration.ofSecs 1

/-! ## State -/

/-- Where the loop is. -/
inductive Control where
  /-- At its top. -/
  | top
  /-- The instant was read, the wall clock not yet. -/
  | begun (started : ℕ)
  /-- In `flush_due`, before a step. -/
  | due (started : ℕ) (now : Timestamp)
  /-- Between the two transactions of such a step. -/
  | packing (started : ℕ) (now : Timestamp)
  /-- In the `select!`. -/
  | waiting (deadline : Option ℕ)
  /-- In `flush_all`, before a step. -/
  | all
  /-- Between the two transactions of such a step. -/
  | packingAll
  /-- `run` has returned, after a final flush that succeeded or failed. -/
  | stopped (flushed : Bool)
  deriving DecidableEq

/-- The loop and the store it shares. -/
structure Loop where
  gateway : Gateway
  permit : Bool
  /-- Messages stored whose sink has not signalled yet. -/
  owed : ℕ
  instant : ℕ
  shutdown : Bool
  control : Control

/-- The start of `run`. -/
def Loop.start (tables : Tables) : Loop := ⟨⟨tables, none⟩, false, 0, 0, false, .top⟩

inductive LoopEvent where
  /-- The transaction of the durable sink. -/
  | push (receivedAt : Timestamp) (envelope : Bytes)
  | notify
  | confirm (id : BatchId)
  | tick (elapsed : ℕ)
  | requestShutdown
  | clock
  /-- The first transaction of a step, which may fail, and the decision. -/
  | plan (fault : Option StoreError)
  /-- The second transaction of a step, which may fail. -/
  | commit (createdAt : Timestamp) (fault : Option StoreError)
  /-- A branch of the `select!`. -/
  | notified
  | deadline
  | gaugeTick
  | stop

inductive LoopObservation where
  | store (a : Observation)
  /-- A pass or the final flush failed; this is logged. -/
  | failed (error : BatchError)

/-! ## Steps -/

/-- The wait after a pass that failed. -/
def Loop.retry (s : Loop) : Loop :=
  { s with
    gateway := { s.gateway with batcher := none }
    control := .waiting (some (s.instant + storeRetryDelay)) }

/-- The end after a final flush that failed. -/
def Loop.giveUp (s : Loop) : Loop :=
  { s with gateway := { s.gateway with batcher := none }, control := .stopped false }

/-- The second transaction of a step; the loop goes on with `control`, or as `failed`. -/
def Loop.commit (s : Loop) (createdAt : Timestamp) (fault : Option StoreError)
    (control : Control) (failed : Loop) : Loop × List LoopObservation :=
  match s.gateway.batcher with
  | none => (s, [])
  | some (config, flush) =>
    match fault.elim (commitBatches s.gateway.tables createdAt flush.consumed flush.prepared)
      .error with
    | .error error => (failed, [.failed (.store error)])
    | .ok (ids, tables) =>
      ({ s with gateway := ⟨tables, none⟩, control },
        ((newBatches config ids flush.prepared).map Observation.created ++
          flush.packed.rejected.map Observation.rejected).map .store)

section

variable (codecs : Codecs) (config : BatcherConfig) (wall : ℕ → Timestamp)

/-- The first transaction of a step, and its decision. -/
def planOn (tables : Tables) (now : Timestamp) (force : Bool) (fault : Option StoreError) :
    Except BatchError Plan :=
  match fault with
  | some error => .error (.store error)
  | none =>
    match pendingMessages tables config.maxMessages with
    | .error error => .error (.store error)
    | .ok pending => plan codecs config pending now force

/-- One step of the loop, or of what happens around it. -/
def loopStep (s : Loop) (e : LoopEvent) : Option (Loop × List LoopObservation) :=
  match e, s.control with
  | .push receivedAt envelope, _ =>
    (gatewayStep codecs s.gateway (.push receivedAt envelope)).map fun next =>
      ({ s with gateway := next.1, owed := s.owed + (pushes next.2).length },
        next.2.map .store)
  | .notify, _ =>
    match s.owed with
    | 0 => none
    | owed + 1 => some ({ s with owed, permit := true }, [])
  | .confirm id, _ =>
    (gatewayStep codecs s.gateway (.confirm id)).map fun next =>
      ({ s with gateway := next.1 }, next.2.map .store)
  | .tick elapsed, _ => some ({ s with instant := s.instant + elapsed }, [])
  | .requestShutdown, _ => some ({ s with shutdown := true }, [])
  | .clock, .top => some ({ s with control := .begun s.instant }, [])
  | .clock, .begun started => some ({ s with control := .due started (wall s.instant) }, [])
  | .plan fault, .due started now =>
    match planOn codecs config s.gateway.tables now false fault with
    | .error error => some (s.retry, [.failed error])
    | .ok .idle => some ({ s with control := .waiting none }, [])
    | .ok (.wait remaining) =>
      some ({ s with control := .waiting (some (started + remaining)) }, [])
    | .ok (.flush flush) =>
      some ({ s with
        gateway := { s.gateway with batcher := some (config, flush) }
        control := .packing started now }, [])
  | .plan fault, .all =>
    match planOn codecs config s.gateway.tables (wall s.instant) true fault with
    | .error error => some (s.giveUp, [.failed error])
    | .ok .idle => some ({ s with control := .stopped true }, [])
    | .ok (.wait _) => some (s, [])
    | .ok (.flush flush) =>
      some ({ s with
        gateway := { s.gateway with batcher := some (config, flush) }
        control := .packingAll }, [])
  | .commit createdAt fault, .packing started now =>
    some (s.commit createdAt fault (.due started now) s.retry)
  | .commit createdAt fault, .packingAll => some (s.commit createdAt fault .all s.giveUp)
  | .notified, .waiting _ =>
    if s.permit then some ({ s with permit := false, control := .top }, []) else none
  | .deadline, .waiting (some deadline) =>
    if deadline ≤ s.instant then some ({ s with control := .top }, []) else none
  | .gaugeTick, .waiting _ => some ({ s with control := .top }, [])
  | .stop, .waiting _ => if s.shutdown then some ({ s with control := .all }, []) else none
  | _, _ => none

/-- The run loop, as a machine. -/
def batcherLoop : EventMachine Loop LoopEvent LoopObservation := ⟨loopStep codecs config wall⟩

/-! ## What a step can do -/

/-- The flush that waits for its commit. -/
def Control.isPacking : Control → Bool
  | .packing _ _ | .packingAll => true
  | _ => false

/-- The steps of the loop, each with what it does to the store. -/
inductive LoopMove (s : Loop) : Loop → List LoopObservation → Prop
  | push {receivedAt : Timestamp} {envelope : Bytes} {gateway : Gateway} {o : List Observation}
    (hstep : gatewayStep codecs s.gateway (.push receivedAt envelope) = some (gateway, o)) :
    LoopMove s { s with gateway, owed := s.owed + (pushes o).length } (o.map .store)
  | notify {owed : ℕ} (howed : s.owed = owed + 1) :
    LoopMove s { s with owed, permit := true } []
  | confirm {id : BatchId} {gateway : Gateway} {o : List Observation}
    (hstep : gatewayStep codecs s.gateway (.confirm id) = some (gateway, o)) :
    LoopMove s { s with gateway } (o.map .store)
  | tick (elapsed : ℕ) : LoopMove s { s with instant := s.instant + elapsed } []
  | requestShutdown : LoopMove s { s with shutdown := true } []
  | begin (hcontrol : s.control = .top) : LoopMove s { s with control := .begun s.instant } []
  | look {started : ℕ} (hcontrol : s.control = .begun started) :
    LoopMove s { s with control := .due started (wall s.instant) } []
  /-- A pass fails, in either transaction. -/
  | retry (error : BatchError) : LoopMove s s.retry [.failed error]
  | giveUp (error : BatchError) : LoopMove s s.giveUp [.failed error]
  /-- Nothing is left to flush, and nothing or one batch is open. -/
  | settle {started : ℕ} {now : Timestamp} {result : Plan} {remaining : Option Duration}
    (hcontrol : s.control = .due started now)
    (hplan : planOn codecs config s.gateway.tables now false none = .ok result)
    (hresult : (result = .idle ∧ remaining = none) ∨
      ∃ r, result = .wait r ∧ remaining = some r) :
    LoopMove s { s with control := .waiting (remaining.map (started + ·)) } []
  | finish {now : Timestamp} (hcontrol : s.control = .all)
    (hplan : planOn codecs config s.gateway.tables now true none = .ok .idle) :
    LoopMove s { s with control := .stopped true } []
  | flush {now : Timestamp} {force : Bool} {flush : Flush} {control : Control}
    (hplan : planOn codecs config s.gateway.tables now force none = .ok (.flush flush))
    (hcontrol : s.control.isPacking = false) (hpacking : control.isPacking = true)
    (hsame : ∀ started now, control = .packing started now → s.control = .due started now) :
    LoopMove s
      { s with gateway := { s.gateway with batcher := some (config, flush) }, control } []
  | commit {createdAt : Timestamp} {config : BatcherConfig} {flush : Flush} {ids : List BatchId}
    {tables : Tables} {control : Control} (hbatcher : s.gateway.batcher = some (config, flush))
    (hcommit : commitBatches s.gateway.tables createdAt flush.consumed flush.prepared =
      .ok (ids, tables))
    (hcontrol : control = .all ∨
      ∃ started now, s.control = .packing started now ∧ control = .due started now) :
    LoopMove s { s with gateway := ⟨tables, none⟩, control }
      (((newBatches config ids flush.prepared).map Observation.created ++
        flush.packed.rejected.map Observation.rejected).map .store)
  /-- A branch of the `select!`; a signal is used up by its own branch only. -/
  | awake {deadline : Option ℕ} {permit : Bool} {control : Control}
    (hcontrol : s.control = .waiting deadline) (hnext : control = .top ∨ control = .all) :
    LoopMove s { s with permit, control } []
  /-- A forced step does not wait, and there is a flush to commit. -/
  | stay : LoopMove s s []

end

section

variable {codecs : Codecs} {config : BatcherConfig} {wall : ℕ → Timestamp} {s s' : Loop}
  {o : List LoopObservation}

theorem planOn_ok {tables : Tables} {now : Timestamp} {force : Bool} {fault : Option StoreError}
    {result : Plan} (h : planOn codecs config tables now force fault = .ok result) :
    fault = none ∧ ∃ pending, pendingMessages tables config.maxMessages = .ok pending ∧
      plan codecs config pending now force = .ok result := by
  unfold planOn at h
  split at h
  · exact absurd h (by simp)
  · split at h
    · exact absurd h (by simp)
    · next pending hpending => exact ⟨rfl, pending, hpending, h⟩

theorem loopMove_of_commit {createdAt : Timestamp} {fault : Option StoreError} {control : Control}
    {failed : Loop} (hfailed : ∀ error, LoopMove codecs config wall s failed [.failed error])
    (hcontrol : control = .all ∨
      ∃ started now, s.control = .packing started now ∧ control = .due started now) :
    LoopMove codecs config wall s (s.commit createdAt fault control failed).1
      (s.commit createdAt fault control failed).2 := by
  unfold Loop.commit
  split
  · exact .stay
  · next config' flush hbatcher =>
    cases fault with
    | some error => exact hfailed _
    | none =>
      dsimp only [Option.elim_none]
      split
      · exact hfailed _
      · next ids tables hcommit => exact .commit hbatcher hcommit hcontrol

/-- **Every step is one of the moves.** -/
theorem loopMove_of_loopStep {e : LoopEvent}
    (hstep : loopStep codecs config wall s e = some (s', o)) :
    LoopMove codecs config wall s s' o := by
  unfold loopStep at hstep
  split at hstep
  · obtain ⟨⟨gateway, o'⟩, hgateway, heq⟩ := Option.map_eq_some_iff.mp hstep
    obtain ⟨rfl, rfl⟩ := Prod.mk.inj heq
    exact .push hgateway
  · split at hstep
    · exact absurd hstep (by simp)
    · next owed howed =>
      obtain ⟨rfl, rfl⟩ := Prod.mk.inj (Option.some.inj hstep)
      exact .notify howed
  · obtain ⟨⟨gateway, o'⟩, hgateway, heq⟩ := Option.map_eq_some_iff.mp hstep
    obtain ⟨rfl, rfl⟩ := Prod.mk.inj heq
    exact .confirm hgateway
  · obtain ⟨rfl, rfl⟩ := Prod.mk.inj (Option.some.inj hstep)
    exact .tick _
  · obtain ⟨rfl, rfl⟩ := Prod.mk.inj (Option.some.inj hstep)
    exact .requestShutdown
  · next hcontrol =>
    obtain ⟨rfl, rfl⟩ := Prod.mk.inj (Option.some.inj hstep)
    exact .begin hcontrol
  · next started hcontrol =>
    obtain ⟨rfl, rfl⟩ := Prod.mk.inj (Option.some.inj hstep)
    exact .look hcontrol
  · next fault started now hcontrol =>
    split at hstep
    · obtain ⟨rfl, rfl⟩ := Prod.mk.inj (Option.some.inj hstep)
      exact .retry _
    · next hplan =>
      obtain ⟨rfl, -⟩ := planOn_ok hplan
      obtain ⟨rfl, rfl⟩ := Prod.mk.inj (Option.some.inj hstep)
      exact LoopMove.settle hcontrol hplan (.inl ⟨rfl, (rfl : none = none)⟩)
    · next remaining hplan =>
      obtain ⟨rfl, -⟩ := planOn_ok hplan
      obtain ⟨rfl, rfl⟩ := Prod.mk.inj (Option.some.inj hstep)
      exact LoopMove.settle hcontrol hplan (.inr ⟨remaining, rfl, (rfl : some remaining = _)⟩)
    · next flush hplan =>
      obtain ⟨rfl, -⟩ := planOn_ok hplan
      obtain ⟨rfl, rfl⟩ := Prod.mk.inj (Option.some.inj hstep)
      refine .flush hplan (by rw [hcontrol]; rfl) rfl fun started' now' heq => ?_
      obtain ⟨rfl, rfl⟩ := Control.packing.inj heq
      exact hcontrol
  · next fault hcontrol =>
    split at hstep
    · obtain ⟨rfl, rfl⟩ := Prod.mk.inj (Option.some.inj hstep)
      exact .giveUp _
    · next hplan =>
      obtain ⟨rfl, -⟩ := planOn_ok hplan
      obtain ⟨rfl, rfl⟩ := Prod.mk.inj (Option.some.inj hstep)
      exact .finish hcontrol hplan
    · obtain ⟨rfl, rfl⟩ := Prod.mk.inj (Option.some.inj hstep)
      exact .stay
    · next flush hplan =>
      obtain ⟨rfl, -⟩ := planOn_ok hplan
      obtain ⟨rfl, rfl⟩ := Prod.mk.inj (Option.some.inj hstep)
      exact .flush hplan (by rw [hcontrol]; rfl) rfl (by simp)
  · next createdAt fault started now hcontrol =>
    obtain ⟨rfl, rfl⟩ := Prod.mk.inj (Option.some.inj hstep)
    exact loopMove_of_commit (fun _ => .retry _) (.inr ⟨started, now, hcontrol, rfl⟩)
  · obtain ⟨rfl, rfl⟩ := Prod.mk.inj (Option.some.inj hstep)
    exact loopMove_of_commit (fun _ => .giveUp _) (.inl rfl)
  · next deadline hcontrol =>
    split_ifs at hstep
    obtain ⟨rfl, rfl⟩ := Prod.mk.inj (Option.some.inj hstep)
    exact .awake hcontrol (.inl rfl)
  · next deadline hcontrol =>
    split_ifs at hstep
    obtain ⟨rfl, rfl⟩ := Prod.mk.inj (Option.some.inj hstep)
    exact .awake hcontrol (.inl rfl)
  · next deadline hcontrol =>
    obtain ⟨rfl, rfl⟩ := Prod.mk.inj (Option.some.inj hstep)
    exact .awake hcontrol (.inl rfl)
  · next deadline hcontrol =>
    split_ifs at hstep
    obtain ⟨rfl, rfl⟩ := Prod.mk.inj (Option.some.inj hstep)
    exact .awake hcontrol (.inr rfl)
  · exact absurd hstep (by simp)

/-! ## Nothing is overlooked

The danger is a message that is stored after the loop has looked and before it sleeps.  Its sink
still owes a signal then, or has left one, so the loop is woken; `Loop.Signalled` counts both.  A
signal that wakes the loop is used up, but the loop looks before it sleeps again. -/

/-- What has been seen at the store. -/
def storeSeen (h : List LoopObservation) : List Observation :=
  h.filterMap fun | .store a => some a | .failed _ => none

@[simp] theorem storeSeen_append (h k : List LoopObservation) :
    storeSeen (h ++ k) = storeSeen h ++ storeSeen k := List.filterMap_append

@[simp] theorem storeSeen_map_store (o : List Observation) : storeSeen (o.map .store) = o := by
  rw [storeSeen, List.filterMap_map]
  exact List.filterMap_some

/-- The pending messages are one open batch, or none, and were so when the wall clock was
read; the deadline is when the first of them is due. -/
def Settled (codecs : Codecs) (config : BatcherConfig) (wall : ℕ → Timestamp) (s : Loop)
    (deadline : Option ℕ) : Prop :=
  ∃ (started looked : ℕ) (remaining : Option Duration), started ≤ looked ∧ looked ≤ s.instant ∧
    deadline = remaining.map (started + ·) ∧
    ∀ msgs : List StoredMessage,
      s.gateway.tables.pendingMessages.entries = msgs.map StoredMessage.entry →
        fullBatch codecs config msgs = none ∧ settle config (wall looked) msgs = (msgs, remaining)

/-- A signal is stored, or a sink is about to signal. -/
def Loop.Signalled (s : Loop) : Prop := s.permit = true ∨ 0 < s.owed

/-- What holds of the loop after a run that showed `h`. -/
structure Watched (codecs : Codecs) (config : BatcherConfig) (wall : ℕ → Timestamp)
    (h : List LoopObservation) (s : Loop) : Prop where
  idle : s.control.isPacking = false → s.gateway.batcher = none
  begun : ∀ started, s.control = .begun started → started ≤ s.instant
  looked : ∀ started now, s.control = .due started now ∨ s.control = .packing started now →
    ∃ looked, started ≤ looked ∧ looked ≤ s.instant ∧ now = wall looked
  waiting : ∀ deadline, s.control = .waiting deadline → s.Signalled ∨
    Settled codecs config wall s deadline ∨
    ((∃ error, .failed error ∈ h) ∧
      ∃ instant, deadline = some instant ∧ instant ≤ s.instant + storeRetryDelay)
  stopped : s.control = .stopped true → s.Signalled ∨
    s.gateway.tables.pendingMessages.entries = []

/-- **What a plan that is not forced says about the pending messages.** -/
theorem settle_of_planOn (hvalid : config.maxMessages ≠ 0) {t : Tables} {now : Timestamp}
    {result : Plan} {remaining : Option Duration}
    (hplan : planOn codecs config t now false none = .ok result)
    (hresult : (result = .idle ∧ remaining = none) ∨ ∃ r, result = .wait r ∧ remaining = some r)
    {msgs : List StoredMessage}
    (hpending : t.pendingMessages.entries = msgs.map StoredMessage.entry) :
    fullBatch codecs config msgs = none ∧ settle config now msgs = (msgs, remaining) := by
  obtain ⟨-, page, hpage, hplan⟩ := planOn_ok hplan
  rcases hresult with ⟨rfl, rfl⟩ | ⟨r, rfl, rfl⟩
  · have hstep : step codecs config t now now false = .ok (.idle, t) := by
      rw [step, hpage]
      simp only [hplan]
    obtain ⟨msgs', hmoves, -⟩ := moves_of_step hvalid hpending hstep
    cases hmoves
    exact ⟨fullBatch_nil hvalid, rfl⟩
  · have hstep : step codecs config t now now false = .ok (.wait r, t) := by
      rw [step, hpage]
      simp only [hplan]
    obtain ⟨msgs', hmoves, -⟩ := moves_of_step hvalid hpending hstep
    cases hmoves with
    | young hfull hyoung => exact ⟨hfull, if_neg (not_le.mpr hyoung)⟩

theorem entries_of_planOn_idle (hvalid : config.maxMessages ≠ 0) {t : Tables} {now : Timestamp}
    {force : Bool} (hplan : planOn codecs config t now force none = .ok .idle) :
    t.pendingMessages.entries = [] := by
  obtain ⟨-, page, hpage, hplan⟩ := planOn_ok hplan
  have hstep : step codecs config t now now force = .ok (.idle, t) := by
    rw [step, hpage]
    simp only [hplan]
  cases takes_of_step hvalid hstep with
  | idle hnone => exact hnone

variable {h : List LoopObservation}

theorem watched_start (t : Tables) : Watched codecs config wall [] (.start t) where
  idle _ := rfl
  begun started heq := absurd heq (by simp [Loop.start])
  looked started now heq := absurd heq (by simp [Loop.start])
  waiting deadline heq := absurd heq (by simp [Loop.start])
  stopped heq := absurd heq (by simp [Loop.start])

namespace Watched

/-- What happens around the loop and leaves the pending messages. -/
theorem carry (w : Watched codecs config wall h s) (hcontrol : s'.control = s.control)
    (hbatcher : s'.gateway.batcher = s.gateway.batcher)
    (hpending : s'.gateway.tables.pendingMessages = s.gateway.tables.pendingMessages)
    (hsignalled : s.Signalled → s'.Signalled) (hinstant : s.instant ≤ s'.instant) :
    Watched codecs config wall (h ++ o) s' where
  idle := by
    rw [hcontrol, hbatcher]
    exact w.idle
  begun started heq := (w.begun started (hcontrol ▸ heq)).trans hinstant
  looked started now heq := by
    rw [hcontrol] at heq
    obtain ⟨looked, hle, hle', hnow⟩ := w.looked started now heq
    exact ⟨looked, hle, hle'.trans hinstant, hnow⟩
  waiting deadline heq := by
    rcases w.waiting deadline (hcontrol ▸ heq) with hs | hs | ⟨⟨error, herror⟩, i, hi, hle⟩
    · exact .inl (hsignalled hs)
    · obtain ⟨started, looked, remaining, hle, hle', hdeadline, hall⟩ := hs
      refine .inr (.inl ⟨started, looked, remaining, hle, hle'.trans hinstant, hdeadline, ?_⟩)
      rw [hpending]
      exact hall
    · exact .inr (.inr ⟨⟨error, List.mem_append_left o herror⟩, i, hi, by omega⟩)
  stopped heq := by
    rw [hpending]
    exact (w.stopped (hcontrol ▸ heq)).imp_left hsignalled

/-- A message is stored, and a signal is owed. -/
theorem push (w : Watched codecs config wall h s) {gateway : Gateway} {owed : ℕ}
    (howed : 0 < owed) (hbatcher : gateway.batcher = s.gateway.batcher) :
    Watched codecs config wall (h ++ o) { s with gateway, owed } where
  idle := by
    dsimp only
    rw [hbatcher]
    exact w.idle
  begun := w.begun
  looked := w.looked
  waiting _ _ := .inl (.inr howed)
  stopped _ := .inl (.inr howed)

theorem step (hvalid : config.maxMessages ≠ 0) (w : Watched codecs config wall h s)
    (hmove : LoopMove codecs config wall s s' o) : Watched codecs config wall (h ++ o) s' := by
  cases hmove with
  | push hstep =>
    simp only [gatewayStep] at hstep
    split_ifs at hstep
    split at hstep
    · obtain ⟨rfl, rfl⟩ := Prod.mk.inj (Option.some.inj hstep)
      exact w.carry rfl rfl rfl id le_rfl
    · obtain ⟨rfl, rfl⟩ := Prod.mk.inj (Option.some.inj hstep)
      exact w.push (Nat.succ_pos s.owed) rfl
  | notify howed => exact w.carry rfl rfl rfl (fun _ => .inl rfl) le_rfl
  | confirm hstep =>
    obtain ⟨rfl, rfl⟩ := Prod.mk.inj (Option.some.inj hstep)
    exact w.carry rfl rfl rfl id le_rfl
  | tick elapsed => exact w.carry rfl rfl rfl id (Nat.le_add_right _ _)
  | requestShutdown | stay => exact w.carry rfl rfl rfl id le_rfl
  | begin hcontrol =>
    have hidle := w.idle (by rw [hcontrol]; rfl)
    refine ⟨fun _ => hidle, fun started heq => ?_, by simp, by simp, by simp⟩
    obtain rfl := Control.begun.inj heq
    exact le_rfl
  | @look started hcontrol =>
    have hidle := w.idle (by rw [hcontrol]; rfl)
    refine ⟨fun _ => hidle, by simp, fun started' now heq => ?_, by simp, by simp⟩
    rcases heq with heq | heq
    · obtain ⟨rfl, rfl⟩ := Control.due.inj heq
      exact ⟨s.instant, w.begun _ hcontrol, le_rfl, rfl⟩
    · exact absurd heq (by simp)
  | retry error =>
    refine ⟨fun _ => rfl, by simp [Loop.retry], by simp [Loop.retry], fun deadline heq => ?_,
      by simp [Loop.retry]⟩
    obtain rfl := Control.waiting.inj heq
    exact .inr (.inr ⟨⟨error, List.mem_append_right h List.mem_cons_self⟩, _, rfl, le_rfl⟩)
  | giveUp error =>
    exact ⟨fun _ => rfl, by simp [Loop.giveUp], by simp [Loop.giveUp], by simp [Loop.giveUp],
      by simp [Loop.giveUp]⟩
  | @settle started now result remaining hcontrol hplan hresult =>
    have hidle := w.idle (by rw [hcontrol]; rfl)
    refine ⟨fun _ => hidle, by simp, by simp, fun deadline heq => ?_, by simp⟩
    obtain rfl := Control.waiting.inj heq
    obtain ⟨looked, hle, hle', rfl⟩ := w.looked started now (.inl hcontrol)
    exact .inr (.inl ⟨started, looked, remaining, hle, hle', rfl,
      fun msgs hmsgs => settle_of_planOn hvalid hplan hresult hmsgs⟩)
  | finish hcontrol hplan =>
    have hidle := w.idle (by rw [hcontrol]; rfl)
    exact ⟨fun _ => hidle, by simp, by simp, by simp,
      fun _ => .inr (entries_of_planOn_idle hvalid hplan)⟩
  | @flush now force flush control hplan hcontrol hpacking hsame =>
    refine ⟨fun heq => absurd (heq.symm.trans hpacking) (by simp), ?_, ?_, ?_, ?_⟩
    · rintro started rfl
      exact absurd hpacking (by simp [Control.isPacking])
    · rintro started now' (rfl | rfl)
      · exact absurd hpacking (by simp [Control.isPacking])
      · exact w.looked started now' (.inl (hsame started now' rfl))
    · rintro deadline rfl
      exact absurd hpacking (by simp [Control.isPacking])
    · rintro rfl
      exact absurd hpacking (by simp [Control.isPacking])
  | commit hbatcher hcommit hcontrol =>
    rcases hcontrol with rfl | ⟨started, now, hpacking, rfl⟩
    · exact ⟨fun _ => rfl, by simp, by simp, by simp, by simp⟩
    · refine ⟨fun _ => rfl, by simp, fun started' now' heq => ?_, by simp, by simp⟩
      rcases heq with heq | heq
      · obtain ⟨rfl, rfl⟩ := Control.due.inj heq
        exact w.looked _ _ (.inr hpacking)
      · exact absurd heq (by simp)
  | @awake deadline permit control hcontrol hnext =>
    have hidle := w.idle (by rw [hcontrol]; rfl)
    rcases hnext with rfl | rfl <;>
    · exact ⟨fun _ => hidle, by simp, by simp, by simp, by simp⟩

/-- **The loop only does what the store in use allows.**  Each move of the loop is no event of
the store or one, with what that shows; a pass that is given up is a crash of the step. -/
theorem gateway_exec (hvalid : config.Valid) (w : Watched codecs config wall h s)
    (hmove : LoopMove codecs config wall s s' o) :
    ∃ es, (gateway codecs).exec s.gateway es = some (s'.gateway, storeSeen o) := by
  have hone : ∀ {e : Event} {g : Gateway} {k : List Observation},
      gatewayStep codecs s.gateway e = some (g, k) →
      (gateway codecs).exec s.gateway [e] = some (g, k) := fun hstep =>
    EventMachine.exec_cons_eq_some_iff.mpr ⟨_, _, [], hstep, rfl, (List.append_nil _).symm⟩
  cases hmove with
  | push hstep | confirm hstep =>
    rw [storeSeen_map_store]
    exact ⟨_, hone hstep⟩
  | retry | giveUp => exact ⟨[.crash], rfl⟩
  | @flush now force flush control hplan hcontrol =>
    obtain ⟨-, page, hpage, hplan⟩ := planOn_ok hplan
    refine ⟨[.plan config now force], hone ?_⟩
    rw [gatewayStep, if_pos ⟨w.idle hcontrol, hvalid⟩]
    simp only [hpage, hplan]
    rfl
  | @commit createdAt _ _ _ _ _ hbatcher hcommit =>
    rw [storeSeen_map_store]
    refine ⟨[.commit createdAt], hone ?_⟩
    simp only [gatewayStep, hbatcher, hcommit]
  | _ => exact ⟨[], rfl⟩

end Watched

/-! ## The guarantee -/

/-- A batch that is still open has fewer messages than it may. -/
theorem length_lt_of_fullBatch {msgs : List StoredMessage}
    (hfull : fullBatch codecs config msgs = none) : msgs.length < config.maxMessages := by
  unfold fullBatch at hfull
  dsimp only at hfull
  split_ifs at hfull with hnot
  rw [not_or, not_not] at hnot
  have hlen := selectLoop_len_of_reason codecs config (msgs.take config.maxMessages) 0 0 hnot.1
  have hne := hnot.2
  rw [List.length_take] at hlen
  omega

/-- What a run of the loop on the tables `t` guarantees, in a state `s` reached with the
history `h`. -/
structure Attentive (codecs : Codecs) (config : BatcherConfig) (wall : ℕ → Timestamp)
    (t : Tables) (h : List LoopObservation) (s : Loop) : Prop where
  /-- The store sees a run of the store in use. -/
  refines : ∃ es, (gateway codecs).exec ⟨t, none⟩ es = some (s.gateway, storeSeen h)
  /-- No signal is lost: when the loop waits and there is none, it has seen all there is, and
  waits for the first message to be due; or a pass has failed, and it will look again soon. -/
  settled : ∀ deadline, s.control = .waiting deadline → ¬ s.Signalled →
    Settled codecs config wall s deadline ∨
    ((∃ error, .failed error ∈ h) ∧
      ∃ instant, deadline = some instant ∧ instant ≤ s.instant + storeRetryDelay)
  /-- While the loop waits, the first pending message is not over age and those pending are too
  few for a batch, if no pass has failed and the wall clock is not faster than the instants.
  Only the first is looked at: a message stored after it may have been received long before, and
  is then over age while the loop waits. -/
  punctual : ∀ deadline, s.control = .waiting deadline → ¬ s.Signalled →
    (∀ error, .failed error ∉ h) → (∀ instant, deadline = some instant → s.instant < instant) →
    (∀ i, i ≤ s.instant →
      (wall s.instant).asMillis.toNat ≤ (wall i).asMillis.toNat + (s.instant - i)) →
    ∀ first rest, s.gateway.tables.pendingMessages.entries =
        (first :: rest).map StoredMessage.entry →
      first.receivedAt.elapsedUntil (wall s.instant) < config.maxBatchAge ∧
        (first :: rest).length < config.maxMessages
  /-- After a final flush that succeeded nothing is pending that was signalled before. -/
  drained : s.control = .stopped true → ¬ s.Signalled →
    s.gateway.tables.pendingMessages.entries = []

/-- **The batcher misses nothing.**  In every run of the loop, with messages stored and signals
given at any moment, batches confirmed meanwhile, failures of the store and of the compressor,
and shutdown: while the loop waits and no signal is left, it has seen all there is, and will look
again when the first message becomes due, or soon after a failure; until then the first message
is not over age and there are too few for a batch; and the final flush, if it succeeds, leaves
none. -/
theorem batcher_attentive (codecs : Codecs) (config : BatcherConfig) (hvalid : config.Valid)
    (wall : ℕ → Timestamp) (t : Tables) (es : List LoopEvent) (s : Loop)
    (h : List LoopObservation)
    (hrun : (batcherLoop codecs config wall).exec (.start t) es = some (s, h)) :
    Attentive codecs config wall t h s := by
  have hall : Watched codecs config wall h s ∧
      ∃ es, (gateway codecs).exec ⟨t, none⟩ es = some (s.gateway, storeSeen h) := by
    refine EventMachine.exec_induction (P := fun _ h s => Watched codecs config wall h s ∧
      ∃ es, (gateway codecs).exec ⟨t, none⟩ es = some (s.gateway, storeSeen h)) ?_ ?_ hrun
    · exact ⟨watched_start t, [], rfl⟩
    · intro es h s e s' o _ ⟨w, gs, hgs⟩ hstep
      have hmove := loopMove_of_loopStep hstep
      obtain ⟨fs, hfs⟩ := w.gateway_exec hvalid hmove
      refine ⟨w.step hvalid.maxMessages_ne_zero hmove, gs ++ fs, ?_⟩
      rw [storeSeen_append]
      exact EventMachine.exec_append_eq_some_iff.mpr ⟨_, _, _, hgs, hfs, rfl⟩
  obtain ⟨w, hrefines⟩ := hall
  have hsettled : ∀ deadline, s.control = .waiting deadline → ¬ s.Signalled →
      Settled codecs config wall s deadline ∨
      ((∃ error, .failed error ∈ h) ∧
        ∃ instant, deadline = some instant ∧ instant ≤ s.instant + storeRetryDelay) :=
    fun deadline hwait hnone => (w.waiting deadline hwait).resolve_left hnone
  refine ⟨hrefines, hsettled, ?_, fun hstop hnone => (w.stopped hstop).resolve_left hnone⟩
  intro deadline hwait hnone hok hbefore hpace first rest hpending
  rcases hsettled deadline hwait hnone with hs | ⟨⟨error, herror⟩, -⟩
  · obtain ⟨started, looked, remaining, hle, hle', rfl, hopen⟩ := hs
    obtain ⟨hfull, hsettle⟩ := hopen (first :: rest) hpending
    refine ⟨?_, length_lt_of_fullBatch hfull⟩
    rw [settle] at hsettle
    split_ifs at hsettle with hdue
    · exact absurd (Prod.mk.inj hsettle).1 (by simp)
    · obtain rfl := (Prod.mk.inj hsettle).2
      have hlt := hbefore _ rfl
      have hclock := hpace looked hle'
      have hyoung : (wall looked).asMillis.toNat - first.receivedAt.asMillis.toNat <
          config.maxBatchAge := not_le.mp hdue
      show (wall s.instant).asMillis.toNat - first.receivedAt.asMillis.toNat < config.maxBatchAge
      dsimp only [Timestamp.elapsedUntil] at hlt
      omega
  · exact absurd herror (hok error)

/-- A clock that shows the instant. -/
def instantWall : ℕ → Timestamp := fun instant => ⟨UInt64.ofNat instant⟩

/-- A message arrives while the loop sleeps, and is due half a minute later; the loop flushes
it and is shut down. -/
def sleepyRun : List LoopEvent :=
  [.clock, .clock, .plan none, .push ⟨0⟩ [10, 1, 7], .notify, .notified, .clock, .clock,
    .plan none, .tick 30000, .deadline, .clock, .clock, .plan none, .commit ⟨30000⟩ none,
    .plan none, .requestShutdown, .stop, .plan none]

theorem batcher_attentive_sleepyRun :
    ∃ s h, (batcherLoop plainCodecs plainConfig instantWall).exec (.start .create) sleepyRun =
        some (s, h) ∧
      s.control = .stopped true ∧ (created (storeSeen h)).map Created.id = [0] ∧
      Attentive plainCodecs plainConfig instantWall .create h s := by
  have hshown : ((batcherLoop plainCodecs plainConfig instantWall).exec (.start .create)
      sleepyRun).map (fun p => (p.1.control, (created (storeSeen p.2)).map Created.id)) =
        some (.stopped true, [0]) := by
    decide +kernel
  obtain ⟨⟨s, h⟩, hrun, hh⟩ := Option.map_eq_some_iff.mp hshown
  obtain ⟨hcontrol, hids⟩ := Prod.mk.inj hh
  exact ⟨s, h, hrun, hcontrol, hids, batcher_attentive plainCodecs plainConfig rfl instantWall
    .create sleepyRun s h hrun⟩

end

end Batcher
end Robins
