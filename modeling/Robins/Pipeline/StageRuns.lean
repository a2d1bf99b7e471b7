import Robins.Pipeline.Stage

/-!
# Runs of the authorization stage

The calls of the stage in any order, with any answers of the policy, any order in which lookups
finish and any panics.  What is parked and not yet returned is the room the stage holds, so every
resolution returns, for its sensor, everything that was parked since the last one, in the order of
admission.

The room is read off the calls: `parkedMessages` without `returnedMessages`.  `RoomOf` says that it
is what the stage holds, one call at a time, and `auth_stage_sound` turns this into statements about
the collections of the code.  That lookups come to an end is the machine's affair and not the
stage's; but each one that does makes the stage smaller (`pending_nextResolution`).
-/

namespace Robins
namespace Pipeline

open Protocol Auth WaitingRoom

/-- A call of the stage, with what the policy and the runtime contribute. -/
inductive StageEvent where
  | admission (ids : TaskIds) (known : Option Bool) (message : Verified)
  | nextResolution (ids : TaskIds) (id : TaskId) (taskEnd : TaskEnd)

/-- What a call of the stage returns. -/
inductive StageObservation where
  | admitted (message : Verified) (admission : Admission)
  | resolved (resolution : Resolution)

def stageStep (stage : AuthStage) : StageEvent → Option (AuthStage × List StageObservation)
  | .admission ids known message =>
    let (admission, stage') := stage.admitMessage ids known message
    some (stage', [.admitted message admission])
  | .nextResolution ids id taskEnd =>
    (stage.nextResolution ids id taskEnd).map fun (resolution, stage') =>
      (stage', [.resolved resolution])

def stageMachine : EventMachine AuthStage StageEvent StageObservation := ⟨stageStep⟩

/-! ## What went in and what came out -/

/-- The messages parked, in the order they were admitted. -/
def parkedMessages : List StageObservation → List Verified
  | [] => []
  | .admitted message .parked :: h => message :: parkedMessages h
  | _ :: h => parkedMessages h

/-- The messages returned, resolution by resolution. -/
def returnedMessages : List StageObservation → List Verified
  | [] => []
  | .resolved resolution :: h => resolution.messages ++ returnedMessages h
  | _ :: h => returnedMessages h

theorem parkedMessages_append (h k : List StageObservation) :
    parkedMessages (h ++ k) = parkedMessages h ++ parkedMessages k := by
  fun_induction parkedMessages h with
  | case1 => rfl
  | case2 message h ih => exact congrArg (message :: ·) ih
  | case3 a h hne ih =>
    rw [List.cons_append, parkedMessages, ih]
    exact hne

theorem returnedMessages_append (h k : List StageObservation) :
    returnedMessages (h ++ k) = returnedMessages h ++ returnedMessages k := by
  fun_induction returnedMessages h with
  | case1 => rfl
  | case2 resolution h ih =>
    rw [List.cons_append, returnedMessages, ih, List.append_assoc]
  | case3 a h hne ih =>
    rw [List.cons_append, returnedMessages, ih]
    exact hne

/-- A resolution returns messages of one sensor, at least one, and with them all
messages of that sensor that were parked before have been returned. -/
def ReturnsAll (h : List StageObservation) : StageObservation → Prop
  | .admitted _ _ => True
  | .resolved resolution =>
    resolution.messages ≠ [] ∧ ∃ sensorId,
      (∀ message ∈ resolution.messages, message.sensor = sensorId) ∧
      ofKey Verified.sensor sensorId (parkedMessages h) =
        ofKey Verified.sensor sensorId (returnedMessages h) ++ resolution.messages

/-- The run and the room: the stage holds the messages parked and not returned. -/
structure RoomOf (limits : AuthLimits) (h : List StageObservation) (stage : AuthStage)
    (room : List Verified) : Prop where
  limits_eq : stage.limits = limits.clamp
  holds : stage.Holds room
  rest : ∀ sensorId, ofKey Verified.sensor sensorId (parkedMessages h) =
    ofKey Verified.sensor sensorId (returnedMessages h) ++ ofKey Verified.sensor sensorId room
  returnsAll : EventMachine.Justified ReturnsAll h

variable {limits : AuthLimits} {h : List StageObservation} {stage : AuthStage}
  {room : List Verified}

theorem roomOf_new (limits : AuthLimits) : RoomOf limits [] (.new limits) [] where
  limits_eq := rfl
  holds := holds_new limits
  rest _ := rfl
  returnsAll := EventMachine.justified_nil _

theorem RoomOf.admitted (hr : RoomOf limits h stage room) (message : Verified)
    {admission : Admission} (hne : admission ≠ .parked) :
    RoomOf limits (h ++ [.admitted message admission]) stage room where
  limits_eq := hr.limits_eq
  holds := hr.holds
  rest sensorId := by
    have hnone : parkedMessages [.admitted message admission] = [] := by
      cases admission <;> first | rfl | exact absurd rfl hne
    rw [parkedMessages_append, returnedMessages_append, hnone, List.append_nil, hr.rest]
    exact congrArg (ofKey _ _ · ++ _) (List.append_nil _).symm
  returnsAll := EventMachine.justified_append_singleton.mpr ⟨hr.returnsAll, trivial⟩

theorem RoomOf.parked (hr : RoomOf limits h stage room) {stage' : AuthStage} {message : Verified}
    (hlimits : stage'.limits = stage.limits) (hholds : stage'.Holds (room ++ [message])) :
    RoomOf limits (h ++ [.admitted message .parked]) stage' (room ++ [message]) where
  limits_eq := hlimits.trans hr.limits_eq
  holds := hholds
  rest sensorId := by
    rw [parkedMessages_append, returnedMessages_append, ofKey_append, ofKey_append, ofKey_append,
      hr.rest, List.append_assoc]
    exact congrArg (· ++ _) (List.append_nil _).symm
  returnsAll := EventMachine.justified_append_singleton.mpr ⟨hr.returnsAll, trivial⟩

theorem RoomOf.resolved (hr : RoomOf limits h stage room) {stage' : AuthStage}
    {sensorId : SensorId} (hne : ofKey Verified.sensor sensorId room ≠ []) (decision : Decision)
    (hlimits : stage'.limits = stage.limits)
    (hholds : stage'.Holds (others Verified.sensor sensorId room)) :
    RoomOf limits (h ++ [.resolved ⟨decision, ofKey Verified.sensor sensorId room⟩]) stage'
      (others Verified.sensor sensorId room) where
  limits_eq := hlimits.trans hr.limits_eq
  holds := hholds
  rest sensorId' := by
    have hparked : parkedMessages
        [.resolved ⟨decision, ofKey Verified.sensor sensorId room⟩] = [] := rfl
    have hreturned : returnedMessages
        [.resolved ⟨decision, ofKey Verified.sensor sensorId room⟩] =
          ofKey Verified.sensor sensorId room := List.append_nil _
    have hsensor : ∀ a ∈ ofKey Verified.sensor sensorId room, a.sensor = sensorId :=
      fun a ha => (mem_ofKey.mp ha).2
    rw [parkedMessages_append, returnedMessages_append, hparked, hreturned, List.append_nil,
      ofKey_append, hr.rest]
    by_cases hs : sensorId' = sensorId
    · subst hs
      rw [ofKey_eq_self hsensor, ofKey_others_self, List.append_nil]
    · have hnone : ofKey Verified.sensor sensorId' (ofKey Verified.sensor sensorId room) = [] :=
        ofKey_eq_nil fun a ha has => hs (has.symm.trans (hsensor a ha))
      rw [ofKey_others_of_ne hs, hnone, List.append_nil]
  returnsAll := by
    refine EventMachine.justified_append_singleton.mpr ⟨hr.returnsAll, hne, sensorId, ?_, ?_⟩
    · exact fun a ha => (mem_ofKey.mp ha).2
    · exact hr.rest sensorId

theorem RoomOf.step (hr : RoomOf limits h stage room) {e : StageEvent} {stage' : AuthStage}
    {o : List StageObservation} (hstep : stageStep stage e = some (stage', o)) :
    ∃ room', RoomOf limits (h ++ o) stage' room' := by
  cases e with
  | admission ids known message =>
    obtain ⟨rfl, rfl⟩ := Prod.mk.inj (Option.some.inj hstep)
    rcases hr.holds.admission ids known message rfl with
      ⟨allowed, -, hadm, hsame⟩ | ⟨-, hadm, hsame, -⟩ | ⟨-, hadm, hlimits, hholds⟩
    · rw [hadm, hsame]
      exact ⟨room, hr.admitted message (by simp)⟩
    · rw [hadm, hsame]
      exact ⟨room, hr.admitted message (by simp)⟩
    · rw [hadm]
      exact ⟨_, hr.parked hlimits hholds⟩
  | nextResolution ids id taskEnd =>
    obtain ⟨⟨resolution, stage''⟩, hnext, heq⟩ := Option.map_eq_some_iff.mp hstep
    obtain ⟨rfl, rfl⟩ := Prod.mk.inj heq
    cases hid : stage.running.lookup id with
    | none =>
      rw [AuthStage.nextResolution, AuthStage.join, hid] at hnext
      exact absurd hnext (by simp)
    | some sensorId =>
      obtain ⟨stage₁, hnext', hlimits, hholds⟩ := hr.holds.nextResolution ids hid taskEnd
      rw [hnext'] at hnext
      obtain ⟨rfl, rfl⟩ := Prod.mk.inj (Option.some.inj hnext)
      exact ⟨_, hr.resolved (hr.holds.ofKey_ne_nil hid) _ hlimits hholds⟩

theorem roomOf_of_exec {es : List StageEvent}
    (hrun : stageMachine.exec (.new limits) es = some (stage, h)) :
    ∃ room, RoomOf limits h stage room :=
  EventMachine.exec_induction (P := fun _ h stage => ∃ room, RoomOf limits h stage room)
    ⟨[], roomOf_new limits⟩ (fun _ _ _ _ _ _ _ ⟨_, hr⟩ hstep => hr.step hstep) hrun

/-- Each resolution makes the stage smaller. -/
theorem pending_nextResolution (hr : RoomOf limits h stage room) {ids : TaskIds} {id : TaskId}
    {taskEnd : TaskEnd} {resolution : Resolution} {stage' : AuthStage}
    (hnext : stage.nextResolution ids id taskEnd = some (resolution, stage')) :
    stage'.pending < stage.pending := by
  cases hid : stage.running.lookup id with
  | none =>
    rw [AuthStage.nextResolution, AuthStage.join, hid] at hnext
    exact absurd hnext (by simp)
  | some sensorId =>
    obtain ⟨stage₁, hnext', -, hholds⟩ := hr.holds.nextResolution ids hid taskEnd
    rw [hnext'] at hnext
    obtain ⟨-, rfl⟩ := Prod.mk.inj (Option.some.inj hnext)
    have hpos := List.length_pos_iff.mpr (hr.holds.ofKey_ne_nil hid)
    have hcount := length_ofKey_add_length_others Verified.sensor sensorId room
    have h₀ := hr.holds.pending_eq
    have h₁ := hholds.pending_eq
    omega

/-! ## The invariant -/

/-- The collections and the counter of the stage agree with each other and with
what was admitted and returned. -/
structure StageSound (limits : AuthLimits) (stage : AuthStage) (h : List StageObservation) :
    Prop where
  pending_eq : stage.pending = (stage.parked.entries.map fun e => e.2.length).sum
  pending_le : stage.pending ≤ max limits.maxPending 1
  running_le : stage.running.len ≤ max limits.maxConcurrent 1
  parked_ne_nil : ∀ sensorId messages, stage.parked.lookup sensorId = some messages →
    messages ≠ []
  /-- A sensor with parked messages is queued or being decided, once. -/
  once : ∀ sensorId, (stage.queued ++ stage.running.sensors).count sensorId =
    if sensorId ∈ stage.parked then 1 else 0
  runningIds_eq : ∀ id, stage.runningIds.lookup id = stage.running.lookup id
  /-- With messages parked a lookup runs, and any that runs can be joined. -/
  progress : 0 < stage.pending → 0 < stage.running.len
  joined : ∀ id ∈ stage.running, ∀ ids taskEnd, ∃ resolution stage',
    stage.nextResolution ids id taskEnd = some (resolution, stage') ∧
      stage'.pending < stage.pending
  /-- What was parked is what was returned and what is still parked. -/
  conserved : ∀ sensorId, ofKey Verified.sensor sensorId (parkedMessages h) =
    ofKey Verified.sensor sensorId (returnedMessages h) ++ (stage.parked.lookup sensorId).getD []
  returnsAll : EventMachine.Justified ReturnsAll h

/-- **The stage is sound.**  After any calls, with any answers, any order of finished lookups and
any panics: the counter is the number of messages parked, within the bounds; a sensor has
messages parked exactly if it is queued or being decided, and then once; a lookup runs while
anything is parked; and what was parked for a sensor is what was returned, in order, and what is
still there. -/
theorem auth_stage_sound (limits : AuthLimits) (es : List StageEvent) (stage : AuthStage)
    (h : List StageObservation) (hrun : stageMachine.exec (.new limits) es = some (stage, h)) :
    StageSound limits stage h := by
  obtain ⟨room, hr⟩ := roomOf_of_exec hrun
  have hh := hr.holds
  have hlimits := hr.limits_eq
  refine ⟨?_, ?_, ?_, ?_, ?_, hh.ids, ?_, ?_, ?_, hr.returnsAll⟩
  · rw [hh.pending_eq, hh.groups.sum_length]
  · have hle := hh.length_le
    rw [hlimits] at hle
    rw [hh.pending_eq]
    exact hle
  · have hle := hh.len_le
    rw [hlimits] at hle
    exact hle
  · exact fun sensorId messages hl => (hh.groups.lookup_eq hl).2
  · intro sensorId
    rw [hh.unsettled.count_eq]
    by_cases hmem : sensorId ∈ stage.parked
    · rw [if_pos hmem]
      exact List.count_eq_one_of_mem stage.parked.keys_nodup (AList.mem_keys.mp hmem)
    · rw [if_neg hmem]
      exact List.count_eq_zero_of_not_mem hmem
  · intro hpos
    obtain ⟨id, sensorId, hid⟩ := hh.running_of_pending hpos
    have hmem : id ∈ stage.running := AList.lookup_isSome.mp (by rw [hid]; rfl)
    exact List.length_pos_of_mem (AList.mem_keys.mp hmem)
  · intro id hid ids taskEnd
    obtain ⟨sensorId, hlookup⟩ := Option.isSome_iff_exists.mp (AList.lookup_isSome.mpr hid)
    obtain ⟨stage', hnext, -, -⟩ := hh.nextResolution ids hlookup taskEnd
    exact ⟨_, stage', hnext, pending_nextResolution hr hnext⟩
  · intro sensorId
    rw [hh.groups.getD_lookup]
    exact hr.rest sensorId

/-- A message of the sensor whose key repeats one byte. -/
def messageOf (key body : UInt8) : Verified :=
  let envelope : SignedEnvelope :=
    ⟨List.replicate 32 key, List.replicate 16 0, [body], List.replicate 64 0⟩
  ⟨⟨envelope, [key, body], ⟨.http, none⟩, ⟨0⟩⟩, ⟨⟨⟨List.replicate 32 key, rfl⟩⟩, envelope⟩⟩

/-- Two sensors and one place: the second waits, the first joins its own lookup,
and the second's lookup panics. -/
def twoSensors : List StageEvent :=
  [.admission .counting none (messageOf 1 1), .admission .counting none (messageOf 2 2),
    .admission .counting none (messageOf 1 3), .nextResolution .counting 1 (.finished (.ok true)),
    .nextResolution .counting 1 .panicked]

theorem auth_stage_sound_twoSensors :
    ∃ stage h, stageMachine.exec (.new ⟨1, 3⟩) twoSensors = some (stage, h) ∧
      returnedMessages h = [messageOf 1 1, messageOf 1 3, messageOf 2 2] ∧
      StageSound ⟨1, 3⟩ stage h := by
  have hreturned : ((stageMachine.exec (.new ⟨1, 3⟩) twoSensors).map fun state =>
      returnedMessages state.2) = some [messageOf 1 1, messageOf 1 3, messageOf 2 2] := by
    decide +kernel
  obtain ⟨⟨stage, h⟩, hrun, hh⟩ := Option.map_eq_some_iff.mp hreturned
  exact ⟨stage, h, hrun, hh, auth_stage_sound ⟨1, 3⟩ twoSensors stage h hrun⟩

end Pipeline
end Robins
