import Robins.Batcher.Step
import Robins.BatchStore.Contents
import Robins.Lib.EventMachine

/-!
# The store in use

Ingress pushes messages, the batcher turns them into batches, the anchor confirms batches, and the
process may crash and restart; they share one store and their transactions interleave in any
order.  A step of the batcher is two events, the planning after its read transaction and the
commit, so anything may happen between them.  A crash loses what the batcher holds in memory and
nothing else.

What a run shows is what the store has answered: the sequence number of every pushed message,
every batch created with its identifier, every message rejected by a committed step, and every
confirmation of a batch that was there.  The history is read by four functions, which split over
its parts; everything that is said of runs is said with these.

`Move` lists what an event can do.  Most leave the store as it is, so there are few: a push, a
commit, a confirmation, and what the batcher has in mind.  The loops of the batcher are runs of
this machine as well (`exec_of_flushDue`, `exec_of_flushAll`), with nothing in between; what holds
of every run holds of them.
-/

namespace Robins
namespace Batcher

open BatchStore Protocol

/-- The store, and the step the batcher is in the middle of. -/
structure Gateway where
  tables : Tables
  batcher : Option (BatcherConfig × Flush)

/-- An empty store and an idle batcher. -/
def Gateway.fresh : Gateway := ⟨Tables.create, none⟩

inductive Event where
  /-- `push_message` -/
  | push (receivedAt : Timestamp) (envelope : Bytes)
  /-- A step of the batcher, up to its commit. -/
  | plan (config : BatcherConfig) (now : Timestamp) (force : Bool)
  /-- The commit of that step. -/
  | commit (createdAt : Timestamp)
  /-- `confirm_batch` -/
  | confirm (id : BatchId)
  /-- The process dies and is started again. -/
  | crash

/-- A batch as it was created. -/
structure Created where
  id : BatchId
  compression : Compression
  batch : PreparedBatch
  deriving DecidableEq, Repr

/-- What is seen of an event. -/
inductive Observation where
  | pushed (message : StoredMessage)
  | created (batch : Created)
  | rejected (error : BatchError)
  | confirmed (id : BatchId)
  deriving DecidableEq, Repr

/-- The batches of a commit under the identifiers the store gave them. -/
def newBatches (config : BatcherConfig) (ids : List BatchId) (prepared : List PreparedBatch) :
    List Created :=
  List.zipWith (fun id batch => ⟨id, config.compression, batch⟩) ids prepared

section

variable (codecs : Codecs)

/-- One event.  An envelope is a buffer in memory, a step of the batcher starts
when no other is going on, under a configuration that passed its checks, and a
commit ends a step that was started. -/
def gatewayStep (s : Gateway) : Event → Option (Gateway × List Observation)
  | .push receivedAt envelope =>
    if envelope.length ≤ isizeMax then
      match pushMessage s.tables receivedAt envelope with
      | .error _ => some (s, [])
      | .ok (sequence, tables) =>
        some ({ s with tables := tables }, [.pushed ⟨sequence, receivedAt, envelope⟩])
    else none
  | .plan config now force =>
    if s.batcher = none ∧ config.Valid then
      match pendingMessages s.tables config.maxMessages with
      | .error _ => some (s, [])
      | .ok pending =>
        match plan codecs config pending now force with
        | .ok (.flush flush) => some ({ s with batcher := some (config, flush) }, [])
        | _ => some (s, [])
    else none
  | .commit createdAt =>
    match s.batcher with
    | none => none
    | some (config, flush) =>
      match commitBatches s.tables createdAt flush.consumed flush.prepared with
      | .error _ => some ({ s with batcher := none }, [])
      | .ok (ids, tables) =>
        some (⟨tables, none⟩, (newBatches config ids flush.prepared).map .created ++
          flush.packed.rejected.map .rejected)
  | .confirm id =>
    let seen := (s.tables.readyBatches.get? id).isSome
    some ({ s with tables := confirmBatch s.tables id }, if seen then [.confirmed id] else [])
  | .crash => some ({ s with batcher := none }, [])

/-- The store in use, as a machine. -/
def gateway : EventMachine Gateway Event Observation := ⟨gatewayStep codecs⟩

end

/-! ## Reading a history -/

def pushes (h : List Observation) : List StoredMessage :=
  h.filterMap fun | .pushed m => some m | _ => none

def created (h : List Observation) : List Created :=
  h.filterMap fun | .created b => some b | _ => none

def rejections (h : List Observation) : List BatchError :=
  h.filterMap fun | .rejected err => some err | _ => none

def confirmations (h : List Observation) : List BatchId :=
  h.filterMap fun | .confirmed id => some id | _ => none

section

variable (h k : List Observation)

@[simp] theorem pushes_append : pushes (h ++ k) = pushes h ++ pushes k := List.filterMap_append

@[simp] theorem created_append : created (h ++ k) = created h ++ created k :=
  List.filterMap_append

@[simp] theorem rejections_append : rejections (h ++ k) = rejections h ++ rejections k :=
  List.filterMap_append

@[simp] theorem confirmations_append :
    confirmations (h ++ k) = confirmations h ++ confirmations k := List.filterMap_append

end

section

variable (m : StoredMessage) (id : BatchId)

@[simp] theorem pushes_pushed : pushes [.pushed m] = [m] := rfl

@[simp] theorem created_pushed : created [.pushed m] = [] := rfl

@[simp] theorem rejections_pushed : rejections [.pushed m] = [] := rfl

@[simp] theorem confirmations_pushed : confirmations [.pushed m] = [] := rfl

@[simp] theorem pushes_confirmed : pushes [.confirmed id] = [] := rfl

@[simp] theorem created_confirmed : created [.confirmed id] = [] := rfl

@[simp] theorem rejections_confirmed : rejections [.confirmed id] = [] := rfl

@[simp] theorem confirmations_confirmed : confirmations [.confirmed id] = [id] := rfl

end

section

variable (bs : List Created) (errs : List BatchError)

@[simp] theorem pushes_map_created : pushes (bs.map .created) = [] := by
  simp [pushes]

@[simp] theorem created_map_created : created (bs.map .created) = bs := by
  simp [created, List.filterMap_map]

@[simp] theorem rejections_map_created : rejections (bs.map .created) = [] := by
  simp [rejections]

@[simp] theorem confirmations_map_created : confirmations (bs.map .created) = [] := by
  simp [confirmations]

@[simp] theorem pushes_map_rejected : pushes (errs.map .rejected) = [] := by
  simp [pushes]

@[simp] theorem created_map_rejected : created (errs.map .rejected) = [] := by
  simp [created]

@[simp] theorem rejections_map_rejected : rejections (errs.map .rejected) = errs := by
  simp [rejections, List.filterMap_map]

@[simp] theorem confirmations_map_rejected : confirmations (errs.map .rejected) = [] := by
  simp [confirmations]

end

/-- What an event can do to the gateway: move it by one operation of the store,
change what the batcher holds, or leave it as it is. -/
inductive Move (codecs : Codecs) (s : Gateway) : Gateway → List Observation → Prop
  | stay : Move codecs s s []
  | push {receivedAt : Timestamp} {envelope : Bytes} {sequence : MessageId} {tables : Tables}
      (hlen : envelope.length ≤ isizeMax)
      (hpush : pushMessage s.tables receivedAt envelope = .ok (sequence, tables)) :
      Move codecs s { s with tables := tables } [.pushed ⟨sequence, receivedAt, envelope⟩]
  | plan {config : BatcherConfig} {now : Timestamp} {force : Bool}
      {pending : List StoredMessage} {flush : Flush}
      (hpending : pendingMessages s.tables config.maxMessages = .ok pending)
      (hplan : plan codecs config pending now force = .ok (.flush flush)) :
      Move codecs s { s with batcher := some (config, flush) } []
  | commit {createdAt : Timestamp} {config : BatcherConfig} {flush : Flush}
      {ids : List BatchId} {tables : Tables} (hbatcher : s.batcher = some (config, flush))
      (hcommit : commitBatches s.tables createdAt flush.consumed flush.prepared =
        .ok (ids, tables)) :
      Move codecs s ⟨tables, none⟩ ((newBatches config ids flush.prepared).map .created ++
        flush.packed.rejected.map .rejected)
  | confirm (id : BatchId) :
      Move codecs s { s with tables := confirmBatch s.tables id }
        (if (s.tables.readyBatches.get? id).isSome then [.confirmed id] else [])
  | forget : Move codecs s { s with batcher := none } []

/-- **Every event is one of these moves.** -/
theorem move_of_gatewayStep {codecs : Codecs} {s s' : Gateway} {e : Event}
    {o : List Observation} (h : gatewayStep codecs s e = some (s', o)) : Move codecs s s' o := by
  cases e with
  | push receivedAt envelope =>
    simp only [gatewayStep] at h
    split at h
    · next hlen =>
      split at h
      · obtain ⟨rfl, rfl⟩ := Prod.mk.inj (Option.some.inj h)
        exact .stay
      · next sequence tables hok =>
        obtain ⟨rfl, rfl⟩ := Prod.mk.inj (Option.some.inj h)
        exact .push hlen hok
    · exact absurd h (by simp)
  | plan config now force =>
    simp only [gatewayStep] at h
    split at h
    · split at h
      · obtain ⟨rfl, rfl⟩ := Prod.mk.inj (Option.some.inj h)
        exact .stay
      · next pending hpending =>
        split at h
        · next flush hflush =>
          obtain ⟨rfl, rfl⟩ := Prod.mk.inj (Option.some.inj h)
          exact .plan hpending hflush
        · obtain ⟨rfl, rfl⟩ := Prod.mk.inj (Option.some.inj h)
          exact .stay
    · exact absurd h (by simp)
  | commit createdAt =>
    simp only [gatewayStep] at h
    split at h
    · exact absurd h (by simp)
    · next config flush hbatcher =>
      split at h
      · obtain ⟨rfl, rfl⟩ := Prod.mk.inj (Option.some.inj h)
        exact .forget
      · next ids tables hok =>
        obtain ⟨rfl, rfl⟩ := Prod.mk.inj (Option.some.inj h)
        exact .commit hbatcher hok
  | confirm id =>
    obtain ⟨rfl, rfl⟩ := Prod.mk.inj (Option.some.inj h)
    exact .confirm id
  | crash =>
    obtain ⟨rfl, rfl⟩ := Prod.mk.inj (Option.some.inj h)
    exact .forget

/-! ## Whole steps and loops -/

section

variable {codecs : Codecs} {config : BatcherConfig}

/-- A step with nothing in between is a plan and, if it flushes, a commit. -/
theorem exec_of_step (hv : config.Valid) {t t' : Tables} {now createdAt : Timestamp}
    {force : Bool} {result : Step}
    (h : step codecs config t now createdAt force = .ok (result, t')) :
    ∃ es o, (gateway codecs).exec ⟨t, none⟩ es = some (⟨t', none⟩, o) := by
  unfold step at h
  split at h
  · exact absurd h (by simp)
  · next pending hpending =>
    have hplanned : ∀ {s : Gateway},
        (gateway codecs).step ⟨t, none⟩ (.plan config now force) = some (s, []) →
        (gateway codecs).exec ⟨t, none⟩ [.plan config now force] = some (s, []) := by
      intro s hs
      exact EventMachine.exec_cons_eq_some_iff.mpr ⟨s, [], [], hs, rfl, rfl⟩
    split at h
    · exact absurd h (by simp)
    · next hplan =>
      obtain ⟨-, rfl⟩ := Prod.mk.inj (Except.ok.inj h)
      refine ⟨_, _, hplanned (s := ⟨t, none⟩) ?_⟩
      simp [gateway, gatewayStep, hv, hpending, hplan]
    · next remaining hplan =>
      obtain ⟨-, rfl⟩ := Prod.mk.inj (Except.ok.inj h)
      refine ⟨_, _, hplanned (s := ⟨t, none⟩) ?_⟩
      simp [gateway, gatewayStep, hv, hpending, hplan]
    · next flush hplan =>
      split at h
      · exact absurd h (by simp)
      · next ids tables hcommit =>
        obtain ⟨-, rfl⟩ := Prod.mk.inj (Except.ok.inj h)
        have hfirst : (gateway codecs).step ⟨t, none⟩ (.plan config now force) =
            some (⟨t, some (config, flush)⟩, []) := by
          simp [gateway, gatewayStep, hv, hpending, hplan]
        have hsecond : (gateway codecs).step ⟨t, some (config, flush)⟩ (.commit createdAt) =
            some (⟨tables, none⟩, (newBatches config ids flush.prepared).map .created ++
              flush.packed.rejected.map .rejected) := by
          simp [gateway, gatewayStep, hcommit]
        exact ⟨[.plan config now force, .commit createdAt], _,
          EventMachine.exec_cons_eq_some_iff.mpr ⟨_, _, _, hfirst,
            EventMachine.exec_cons_eq_some_iff.mpr ⟨_, _, [], hsecond, rfl, rfl⟩, rfl⟩⟩

/-- `flush_due` is a run of the gateway. -/
theorem exec_of_flushDue (hv : config.Valid) {now : Timestamp} {clock : List Timestamp}
    {t t' : Tables} {result : Except BatchError (Option Duration)}
    (h : flushDue codecs config now clock t = some (result, t')) :
    ∃ es o, (gateway codecs).exec ⟨t, none⟩ es = some (⟨t', none⟩, o) := by
  induction clock generalizing t with
  | nil => exact absurd h (by simp [flushDue])
  | cons createdAt clock ih =>
    rw [flushDue] at h
    split at h
    · obtain ⟨-, rfl⟩ := Prod.mk.inj (Option.some.inj h)
      exact ⟨[], [], rfl⟩
    · next t₁ hstep =>
      obtain ⟨es, o, hes⟩ := exec_of_step hv hstep
      obtain ⟨fs, o', hfs⟩ := ih h
      exact ⟨es ++ fs, o ++ o', EventMachine.exec_append_eq_some_iff.mpr
        ⟨_, _, _, hes, hfs, rfl⟩⟩
    · next remaining t₁ hstep =>
      obtain ⟨-, rfl⟩ := Prod.mk.inj (Option.some.inj h)
      exact exec_of_step hv hstep
    · next t₁ hstep =>
      obtain ⟨-, rfl⟩ := Prod.mk.inj (Option.some.inj h)
      exact exec_of_step hv hstep

/-- `flush_all` is a run of the gateway. -/
theorem exec_of_flushAll (hv : config.Valid) {clock : List (Timestamp × Timestamp)}
    {t t' : Tables} {result : Except BatchError Unit}
    (h : flushAll codecs config clock t = some (result, t')) :
    ∃ es o, (gateway codecs).exec ⟨t, none⟩ es = some (⟨t', none⟩, o) := by
  induction clock generalizing t with
  | nil => exact absurd h (by simp [flushAll])
  | cons times clock ih =>
    rw [flushAll] at h
    split at h
    · obtain ⟨-, rfl⟩ := Prod.mk.inj (Option.some.inj h)
      exact ⟨[], [], rfl⟩
    · next t₁ hstep =>
      obtain ⟨-, rfl⟩ := Prod.mk.inj (Option.some.inj h)
      exact exec_of_step hv hstep
    · next result' t₁ _ hstep =>
      obtain ⟨es, o, hes⟩ := exec_of_step hv hstep
      obtain ⟨fs, o', hfs⟩ := ih h
      exact ⟨es ++ fs, o ++ o', EventMachine.exec_append_eq_some_iff.mpr
        ⟨_, _, _, hes, hfs, rfl⟩⟩

end

end Batcher
end Robins
