import Robins.Pipeline.Authorize
import Robins.Lib.EventMachine
import Robins.Lib.WaitingRoom

/-!
# What the authorization stage holds

Abstractly the stage is a waiting room: the parked messages in the order they were admitted.
Parking adds a message at the end, and a lookup takes out all messages of its sensor.
`AuthStage.Holds` says that the four collections and the counter of the stage are those of a room,
and that the places for lookups are used up before a sensor waits in the queue.

The stage finds the sensor of a finished task in one map, its messages in another, and removes both.
That they agree is the point of the invariant: each sensor with messages is in the queue or has
exactly one task, and never both, so no task finishes without messages to return
(`AuthStage.Holds.ofKey_ne_nil`) and no messages wait without a lookup to come
(`AuthStage.Holds.running_of_pending`).  Between the two halves of a call the places may be unused
for a moment; `Refilled` says what filling them again does.
-/

namespace Robins
namespace Pipeline

open Protocol Auth WaitingRoom

/-! ## Tasks -/

section

variable {running : JoinSet} {id : TaskId} {sensorId : SensorId}

/-- Equal lookups make equal entries, up to order. -/
theorem entries_perm {s t : JoinSet} (h : ∀ id, s.lookup id = t.lookup id) :
    s.entries.Perm t.entries :=
  List.lookup_ext s.nodupKeys t.nodupKeys fun id sensorId => by
    have hid : s.entries.dlookup id = t.entries.dlookup id := h id
    rw [hid]

theorem sensors_insert (hid : id ∉ running.keys) :
    JoinSet.sensors (running.insert id sensorId) = sensorId :: running.sensors := by
  rw [JoinSet.sensors, AList.entries_insert_of_notMem (AList.mem_keys.not.mpr hid)]
  rfl

theorem len_insert (hid : id ∉ running.keys) :
    JoinSet.len (running.insert id sensorId) = running.len + 1 := by
  rw [JoinSet.len, AList.keys_insert, List.erase_of_not_mem hid]
  rfl

/-- A task of the set is one of its entries. -/
theorem entries_perm_cons_erase (hid : running.lookup id = some sensorId) :
    running.entries.Perm (⟨id, sensorId⟩ :: (running.erase id).entries) := by
  have hnot : id ∉ running.erase id := by
    rw [AList.mem_erase]
    exact fun h => h.1 rfl
  rw [← AList.entries_insert_of_notMem hnot]
  refine entries_perm fun id' => ?_
  by_cases h : id' = id
  · subst h
    rw [hid, AList.lookup_insert]
  · rw [AList.lookup_insert_ne h, AList.lookup_erase_ne h]

theorem sensors_perm_cons_erase (hid : running.lookup id = some sensorId) :
    running.sensors.Perm (sensorId :: JoinSet.sensors (running.erase id)) := by
  have h := (entries_perm_cons_erase hid).map Sigma.snd
  exact h

theorem len_erase (hid : running.lookup id = some sensorId) :
    JoinSet.len (running.erase id) + 1 = running.len := by
  have h := (entries_perm_cons_erase hid).length_eq
  rw [List.length_cons] at h
  simp only [JoinSet.len, AList.keys, List.keys, List.length_map]
  omega

theorem len_eq_length_sensors : running.len = running.sensors.length := by
  simp [JoinSet.len, JoinSet.sensors, AList.keys, List.keys]

end

/-! ## Refilling the places for lookups -/

/-- What starting queued lookups does to a stage: sensors move from the queue to
the tasks until one of the two is exhausted, and nothing else changes. -/
structure Refilled (queued : List SensorId) (stage stage' : AuthStage) : Prop where
  limits_eq : stage'.limits = stage.limits
  parked_eq : stage'.parked = stage.parked
  pending_eq : stage'.pending = stage.pending
  perm : (stage'.queued ++ stage'.running.sensors).Perm (queued ++ stage.running.sensors)
  ids : (∀ id, stage.runningIds.lookup id = stage.running.lookup id) →
    ∀ id, stage'.runningIds.lookup id = stage'.running.lookup id
  len_le : stage.running.len ≤ stage.limits.maxConcurrent →
    stage'.running.len ≤ stage.limits.maxConcurrent
  full : stage'.queued ≠ [] → stage.limits.maxConcurrent ≤ stage'.running.len

theorem refilled_startFrom (ids : TaskIds) (queued : List SensorId) :
    ∀ stage : AuthStage, Refilled queued stage (stage.startFrom ids queued) := by
  induction queued with
  | nil =>
    intro stage
    exact ⟨rfl, rfl, rfl, .refl _, id, id, fun h => absurd rfl h⟩
  | cons sensorId queued ih =>
    intro stage
    by_cases hroom : stage.running.len < stage.limits.maxConcurrent
    · -- the lookup of the first sensor starts
      have hfresh := ids.fresh_notMem stage.running.keys
      have hr := ih (stage.spawn ids sensorId)
      have hlen : (stage.spawn ids sensorId).running.len = stage.running.len + 1 :=
        len_insert hfresh
      have hsensors : (stage.spawn ids sensorId).running.sensors =
          sensorId :: stage.running.sensors := sensors_insert hfresh
      have hstart : stage.startFrom ids (sensorId :: queued) =
          (stage.spawn ids sensorId).startFrom ids queued := if_pos hroom
      rw [hstart]
      refine ⟨hr.limits_eq, hr.parked_eq, hr.pending_eq, ?_, fun hids => hr.ids fun id => ?_,
        fun _ => hr.len_le ?_, hr.full⟩
      · refine hr.perm.trans ?_
        rw [hsensors]
        exact List.perm_middle
      · show AList.lookup id (stage.runningIds.insert _ sensorId) =
          AList.lookup id (stage.running.insert _ sensorId)
        by_cases h : id = ids.fresh stage.running.keys
        · subst h
          rw [AList.lookup_insert, AList.lookup_insert]
        · rw [AList.lookup_insert_ne h, AList.lookup_insert_ne h, hids id]
      · rw [hlen]
        exact hroom
    · -- all places are taken
      have hstart : stage.startFrom ids (sensorId :: queued) =
          { stage with queued := sensorId :: queued } := if_neg hroom
      rw [hstart]
      exact ⟨rfl, rfl, rfl, .refl _, id, id, fun _ => Nat.le_of_not_lt hroom⟩

/-! ## The stage and its room -/

/-- The stage holds a room of messages. -/
structure AuthStage.Holds (stage : AuthStage) (room : List Verified) : Prop where
  groups : Groups Verified.sensor room stage.parked
  pending_eq : stage.pending = room.length
  length_le : room.length ≤ stage.limits.maxPending
  unsettled : (stage.queued ++ stage.running.sensors).Perm stage.parked.keys
  ids : ∀ id, stage.runningIds.lookup id = stage.running.lookup id
  len_le : stage.running.len ≤ stage.limits.maxConcurrent
  full : stage.queued ≠ [] → stage.limits.maxConcurrent ≤ stage.running.len

variable {stage : AuthStage} {room : List Verified} {ids : TaskIds}

theorem holds_new (limits : AuthLimits) : (AuthStage.new limits).Holds [] where
  groups := .empty _
  pending_eq := rfl
  length_le := Nat.zero_le _
  unsettled := .refl _
  ids _ := rfl
  len_le := Nat.zero_le _
  full h := absurd rfl h

/-- Refilling completes a stage that is otherwise in order. -/
theorem Refilled.holds {queued : List SensorId} {stage' : AuthStage}
    (hr : Refilled queued stage stage') (hgroups : Groups Verified.sensor room stage.parked)
    (hpending : stage.pending = room.length) (hlength : room.length ≤ stage.limits.maxPending)
    (hperm : (queued ++ stage.running.sensors).Perm stage.parked.keys)
    (hids : ∀ id, stage.runningIds.lookup id = stage.running.lookup id)
    (hlen : stage.running.len ≤ stage.limits.maxConcurrent) : stage'.Holds room where
  groups := hr.parked_eq ▸ hgroups
  pending_eq := hr.pending_eq.trans hpending
  length_le := hr.limits_eq ▸ hlength
  unsettled := hr.parked_eq ▸ hr.perm.trans hperm
  ids := hr.ids hids
  len_le := hr.limits_eq ▸ hr.len_le hlen
  full := hr.limits_eq ▸ hr.full

theorem AuthStage.Holds.park (h : stage.Holds room) (ids : TaskIds) (message : Verified)
    (hroom : stage.pending < stage.limits.maxPending) :
    ∃ stage', stage.admitMessage ids none message = (.parked, stage') ∧
      stage'.limits = stage.limits ∧ stage'.Holds (room ++ [message]) := by
  have hpending := h.pending_eq
  have hlength : (room ++ [message]).length = room.length + 1 := List.length_append
  unfold AuthStage.admitMessage
  dsimp only
  rw [if_neg (by omega)]
  cases hlookup : stage.parked.lookup message.sensor with
  | some waiting =>
    -- the sensor's lookup is queued or running already
    have hmem : message.sensor ∈ stage.parked.keys := by
      rw [← AList.mem_keys, ← AList.lookup_isSome, hlookup]
      rfl
    refine ⟨_, rfl, rfl, h.groups.join hlookup, ?_, ?_, ?_, h.ids, h.len_le, h.full⟩
    · rw [hlength, ← hpending]
    · rw [hlength]
      dsimp only
      omega
    · rw [AList.keys_insert]
      exact h.unsettled.trans (List.perm_cons_erase hmem)
  | none =>
    have hmem : message.sensor ∉ stage.parked.keys := by
      rw [← AList.mem_keys]
      exact AList.lookup_eq_none.mp hlookup
    refine ⟨_, rfl, (refilled_startFrom ids _ _).limits_eq, ?_⟩
    refine (refilled_startFrom ids _ _).holds (h.groups.begin hlookup) ?_ ?_ ?_ h.ids h.len_le
    · rw [hlength, ← hpending]
    · rw [hlength]
      dsimp only
      omega
    · rw [AList.keys_insert, List.erase_of_not_mem hmem, List.append_assoc]
      exact List.perm_middle.trans (h.unsettled.cons _)

/-- The three ways to admit a message. -/
theorem AuthStage.Holds.admission (h : stage.Holds room) (ids : TaskIds) (known : Option Bool)
    (message : Verified) {admission : Admission} {stage' : AuthStage}
    (hadmission : stage.admitMessage ids known message = (admission, stage')) :
    (∃ allowed, known = some allowed ∧ admission = .decided allowed message ∧ stage' = stage) ∨
      (known = none ∧ admission = .overflow message ∧ stage' = stage ∧ 0 < stage.pending) ∨
      (known = none ∧ admission = .parked ∧ stage'.limits = stage.limits ∧
        stage'.Holds (room ++ [message])) := by
  cases known with
  | some allowed =>
    obtain ⟨rfl, rfl⟩ := Prod.mk.inj hadmission
    exact .inl ⟨allowed, rfl, rfl, rfl⟩
  | none =>
    by_cases hroom : stage.pending < stage.limits.maxPending
    · obtain ⟨stage'', hpark, hlimits, hholds⟩ := h.park ids message hroom
      rw [hpark] at hadmission
      obtain ⟨rfl, rfl⟩ := Prod.mk.inj hadmission
      exact .inr (.inr ⟨rfl, rfl, hlimits, hholds⟩)
    · have hfull : stage.admitMessage ids none message = (.overflow message, stage) :=
        if_pos (Nat.le_of_not_lt hroom)
      rw [hfull] at hadmission
      obtain ⟨rfl, rfl⟩ := Prod.mk.inj hadmission
      have hpos := stage.limits.maxPending_pos
      exact .inr (.inl ⟨rfl, rfl, rfl, by omega⟩)

/-- The decision a finished task brings back. -/
def TaskEnd.decision : TaskEnd → Decision
  | .finished decision => decision
  | .panicked => .error (.lookup "lookup task failed")

theorem AuthStage.Holds.join (h : stage.Holds room) {id : TaskId} {sensorId : SensorId}
    (hid : stage.running.lookup id = some sensorId) (taskEnd : TaskEnd) :
    stage.join id taskEnd = some (sensorId, taskEnd.decision) := by
  cases taskEnd with
  | finished decision => simp only [AuthStage.join, hid, TaskEnd.decision]
  | panicked => simp only [AuthStage.join, hid, h.ids id, TaskEnd.decision]

/-- A sensor whose lookup runs has parked messages. -/
theorem AuthStage.Holds.ofKey_ne_nil (h : stage.Holds room) {id : TaskId} {sensorId : SensorId}
    (hid : stage.running.lookup id = some sensorId) : ofKey Verified.sensor sensorId room ≠ [] := by
  have hmem : sensorId ∈ stage.running.sensors :=
    List.mem_map.mpr ⟨⟨id, sensorId⟩, AList.mem_lookup_iff.mp hid, rfl⟩
  have hkey : sensorId ∈ stage.parked.keys :=
    h.unsettled.mem_iff.mp (List.mem_append_right _ hmem)
  obtain ⟨a, ha⟩ := h.groups.mem_keys_iff.mp hkey
  exact List.ne_nil_of_mem (mem_ofKey.mpr ha)

/-- **A resolution takes out the messages of its sensor**, and the place of its lookup is filled
again from the queue. -/
theorem AuthStage.Holds.nextResolution (h : stage.Holds room) (ids : TaskIds) {id : TaskId}
    {sensorId : SensorId} (hid : stage.running.lookup id = some sensorId) (taskEnd : TaskEnd) :
    ∃ stage', stage.nextResolution ids id taskEnd =
        some (⟨taskEnd.decision, ofKey Verified.sensor sensorId room⟩, stage') ∧
      stage'.limits = stage.limits ∧ stage'.Holds (others Verified.sensor sensorId room) := by
  have hjoin := h.join hid taskEnd
  have hmessages := h.groups.getD_lookup sensorId
  have hcount := length_ofKey_add_length_others Verified.sensor sensorId room
  have hpending := h.pending_eq
  have hlength := h.length_le
  unfold AuthStage.nextResolution
  rw [hjoin, Option.map_some]
  dsimp only
  rw [hmessages]
  refine ⟨_, rfl, (refilled_startFrom ids _ _).limits_eq, ?_⟩
  refine (refilled_startFrom ids _ _).holds (h.groups.erase sensorId) ?_ ?_ ?_ ?_ ?_
  · dsimp only
    omega
  · dsimp only
    omega
  · rw [AList.keys_erase]
    have hperm := h.unsettled.trans
      (List.perm_cons_erase (h.unsettled.mem_iff.mp (List.mem_append_right _
        ((sensors_perm_cons_erase hid).mem_iff.mpr List.mem_cons_self))))
    refine List.Perm.cons_inv (a := sensorId) (.trans ?_ hperm)
    exact List.perm_middle.symm.trans ((sensors_perm_cons_erase hid).symm.append_left _)
  · intro id'
    dsimp only
    by_cases hne : id' = id
    · subst hne
      rw [AList.lookup_erase, AList.lookup_erase]
    · rw [AList.lookup_erase_ne hne, AList.lookup_erase_ne hne, h.ids id']
  · have hlen := len_erase hid
    have hle := h.len_le
    dsimp only
    omega

/-- **Parked messages have a lookup running.** -/
theorem AuthStage.Holds.running_of_pending (h : stage.Holds room) (hpos : 0 < stage.pending) :
    ∃ id sensorId, stage.running.lookup id = some sensorId := by
  have hlen : 0 < stage.running.len := by
    by_cases hqueued : stage.queued = []
    · obtain ⟨a, ha⟩ := List.exists_mem_of_ne_nil room (by
        rintro rfl
        rw [h.pending_eq] at hpos
        exact absurd hpos (by simp))
      have hkey : a.sensor ∈ stage.parked.keys := h.groups.mem_keys_iff.mpr ⟨a, ha, rfl⟩
      have hsensor := h.unsettled.mem_iff.mpr hkey
      rw [hqueued, List.nil_append] at hsensor
      rw [len_eq_length_sensors]
      exact List.length_pos_of_mem hsensor
    · have := h.full hqueued
      have := stage.limits.maxConcurrent_pos
      omega
  obtain ⟨id, hid⟩ := List.exists_mem_of_length_pos hlen
  obtain ⟨sensorId, hlookup⟩ := Option.isSome_iff_exists.mp
    (AList.lookup_isSome.mpr (AList.mem_keys.mpr hid))
  exact ⟨id, sensorId, hlookup⟩

end Pipeline
end Robins
