import Robins.Pipeline.Run
import Robins.Pipeline.Stage

/-!
# What the pipeline accepts

The account of a run.  Every message taken from the channel is settled or still in the pipeline:
parked in the stage, or in the hands of the control.  An identifier in the duplicate cache belongs
to a message that every required sink took, or to the one being delivered.

## Reading a history

What must have happened before an observation is a statement about the history up to it: that the
message was taken from the channel and verified (`Genuine`), that the policy gave an answer for it
(`Answered`), that the required sinks took it (`TakenByRequired`).  Each of these stays true when
the history goes on, and `Explained` says which of them an observation needs.

## The account

`Control.Knows` is what is known about the messages in the hands of the control, by where it is;
`Tracked` puts it together with the room of the stage and the duplicate cache.  A step is a few of
the moves below, each of which keeps the account: a message is taken, parked, resolved, decided,
handed on, settled.  Steps of the code that do several of these at once are their compositions.
-/

namespace Robins
namespace Pipeline

open Protocol Auth WaitingRoom

/-! ## Reading a history -/

/-- The message a step took from the channel. -/
def Observation.took? : Observation → Option IngressMessage
  | .took message => some message
  | _ => none

def Observation.settled? : Observation → Option (IngressMessage × Outcome)
  | .settled message outcome => some (message, outcome)
  | _ => none

/-- The messages taken from the channel. -/
def taken (h : List Observation) : List IngressMessage := h.filterMap Observation.took?

/-- The messages settled, with their outcomes. -/
def outcomes (h : List Observation) : List (IngressMessage × Outcome) :=
  h.filterMap Observation.settled?

theorem taken_append (h k : List Observation) : taken (h ++ k) = taken h ++ taken k :=
  List.filterMap_append

theorem outcomes_append (h k : List Observation) : outcomes (h ++ k) = outcomes h ++ outcomes k :=
  List.filterMap_append

/-- The message was taken from the channel and verified. -/
def Genuine (verify : Ed25519Verify) (h : List Observation) (v : Verified) : Prop :=
  .took v.message ∈ h ∧ verifyEnvelope verify v.message.envelope = .ok v.verified

/-- The policy gave this answer for the message: when it was admitted, or by the
lookup for its sensor that it waited for. -/
def Answered (h : List Observation) (v : Verified) (decision : Decision) : Prop :=
  (∃ allowed, decision = .ok allowed ∧ .tried v (some allowed) ∈ h) ∨
    ∃ messages, v ∈ messages ∧ .resolved v.sensor ⟨decision, messages⟩ ∈ h

/-- Every required sink took the message. -/
def TakenByRequired (sinks : List Sink) (h : List Observation) (a : AcceptedMessage) : Prop :=
  ∀ i sink, sinks[i]? = some sink → sink.required = true → .handed i a (.ok ()) ∈ h

/-- A message with this identifier was accepted, and every required sink took it. -/
def Persisted (sha256 : Sha256) (sinks : List Sink) (h : List Observation) (id : EnvelopeId) :
    Prop :=
  ∃ v : Verified, (v.accepted sha256).envelopeId = id ∧ .settled v.message .accepted ∈ h ∧
    TakenByRequired sinks h (v.accepted sha256)

/-- What must have happened before an observation. -/
def Explained (verify : Ed25519Verify) (sha256 : Sha256) (sinks : List Sink)
    (h : List Observation) : Observation → Prop
  | .handed _ a _ => ∃ v, a = v.accepted sha256 ∧ Genuine verify h v ∧ Answered h v (.ok true)
  | .settled message (.rejected error) => verifyEnvelope verify message.envelope = .error error
  | .settled message .denied =>
    ∃ v, v.message = message ∧ Genuine verify h v ∧ Answered h v (.ok false)
  | .settled message (.lookupFailed error) =>
    ∃ v, v.message = message ∧ Genuine verify h v ∧ Answered h v (.error error)
  | .settled message (.duplicate id) =>
    id = envelopeId sha256 message.rawEnvelope ∧ Persisted sha256 sinks h id
  | .settled message .accepted =>
    ∃ v, v.message = message ∧ Genuine verify h v ∧ TakenByRequired sinks h (v.accepted sha256)
  | _ => True

section

variable {verify : Ed25519Verify} {sha256 : Sha256} {sinks : List Sink} {h : List Observation}
  {v : Verified}

theorem Genuine.append (hg : Genuine verify h v) (o : List Observation) :
    Genuine verify (h ++ o) v :=
  ⟨List.mem_append_left o hg.1, hg.2⟩

theorem Answered.append {decision : Decision} (ha : Answered h v decision)
    (o : List Observation) : Answered (h ++ o) v decision := by
  rcases ha with ⟨allowed, heq, hmem⟩ | ⟨messages, hv, hmem⟩
  · exact .inl ⟨allowed, heq, List.mem_append_left o hmem⟩
  · exact .inr ⟨messages, hv, List.mem_append_left o hmem⟩

theorem TakenByRequired.append {a : AcceptedMessage} (ht : TakenByRequired sinks h a)
    (o : List Observation) : TakenByRequired sinks (h ++ o) a :=
  fun i sink hi hreq => List.mem_append_left o (ht i sink hi hreq)

theorem Persisted.append {id : EnvelopeId} (hp : Persisted sha256 sinks h id)
    (o : List Observation) : Persisted sha256 sinks (h ++ o) id := by
  obtain ⟨v, hid, hmem, htaken⟩ := hp
  exact ⟨v, hid, List.mem_append_left o hmem, htaken.append o⟩

end

/-! ## What the control holds

Where the control is says which messages it has in its hands and what is known of them: the
message of a delivery was allowed, and the required sinks that were passed took it unless one was
given up; the policy has given the decision for all messages left of a resolution; and of others
nothing is known but that they were verified. -/

/-- The messages left of a resolution. -/
def Remaining.pending (rest : Remaining) : List Verified := rest.messages ++ rest.held.toList

/-- The messages in the hands of the control. -/
def Control.pending : Control → List Verified
  | .admitting message | .held message => [message]
  | .resolving rest => rest.pending
  | .delivering delivery | .backoff delivery => delivery.message :: delivery.rest.pending
  | .select | .stopped => []

def Control.delivery? : Control → Option Delivery
  | .delivering delivery | .backoff delivery => some delivery
  | _ => none

section

variable {sha256 : Sha256} {s : State} {d : Delivery}

@[simp] theorem delivery?_loop (s : State) : s.loop.control.delivery? = none := by
  unfold State.loop
  dsimp only
  split_ifs <;> rfl

@[simp] theorem delivery?_proceed (s : State) (rest : Remaining) :
    (s.proceed rest).control.delivery? = none := by
  obtain ⟨decision, messages, held⟩ := rest
  cases messages with
  | cons v messages => rfl
  | nil =>
    cases held with
    | none => exact delivery?_loop s
    | some v => rfl

/-- Fanning out either waits for the sink that is next or is over. -/
theorem delivery?_fanOut {d' : Delivery}
    (hd : (s.fanOut sha256 d).1.control.delivery? = some d') :
    d' = d ∧ d.index < s.pipeline.sinks.length := by
  unfold State.fanOut at hd
  dsimp only at hd
  split_ifs at hd with hindex
  · exact ⟨(Option.some.inj hd).symm, hindex⟩
  · exact absurd (hd.symm.trans (delivery?_proceed ..)) (by simp)
  · exact absurd (hd.symm.trans (delivery?_proceed ..)) (by simp)

@[simp] theorem pipeline_proceed (s : State) (rest : Remaining) :
    (s.proceed rest).pipeline = s.pipeline := by
  unfold State.proceed
  split <;> rfl

end

/-- The identifier of the message under delivery. -/
def Control.flying (sha256 : Sha256) (c : Control) : Option EnvelopeId :=
  c.delivery?.map fun delivery => envelopeId sha256 delivery.message.message.rawEnvelope

/-- The policy gave the decision for every message left. -/
def Remaining.Decided (h : List Observation) (rest : Remaining) : Prop :=
  ∀ v ∈ rest.messages, Answered h v rest.decision

/-- The message is allowed, and the required sinks already passed took it unless
one was given up. -/
structure Delivery.Underway (sha256 : Sha256) (sinks : List Sink) (h : List Observation)
    (d : Delivery) : Prop where
  allowed : Answered h d.message (.ok true)
  decided : d.rest.Decided h
  taken : d.complete = true → ∀ i < d.index, ∀ sink, sinks[i]? = some sink →
    sink.required = true → .handed i (d.message.accepted sha256) (.ok ()) ∈ h

/-- What is known about the messages in the hands of the control. -/
def Control.Knows (sha256 : Sha256) (sinks : List Sink) (h : List Observation) : Control → Prop
  | .resolving rest => rest.Decided h
  | .delivering delivery | .backoff delivery => delivery.Underway sha256 sinks h
  | _ => True

theorem Remaining.Decided.append {h : List Observation} {rest : Remaining}
    (hd : rest.Decided h) (o : List Observation) : rest.Decided (h ++ o) :=
  fun v hv => (hd v hv).append o

theorem Delivery.Underway.append {sha256 : Sha256} {sinks : List Sink} {h : List Observation}
    {d : Delivery} (hd : d.Underway sha256 sinks h) (o : List Observation) :
    d.Underway sha256 sinks (h ++ o) where
  allowed := hd.allowed.append o
  decided := hd.decided.append o
  taken hc i hi sink hsink hreq := List.mem_append_left o (hd.taken hc i hi sink hsink hreq)

theorem Control.Knows.append {sha256 : Sha256} {sinks : List Sink} {h : List Observation}
    {c : Control} (hc : c.Knows sha256 sinks h) (o : List Observation) :
    c.Knows sha256 sinks (h ++ o) := by
  cases c with
  | resolving rest => exact Remaining.Decided.append hc o
  | delivering delivery => exact Delivery.Underway.append hc o
  | backoff delivery => exact Delivery.Underway.append hc o
  | _ => trivial

/-! ## The account -/

/-- The account of a run: the stage holds a room, and every message taken is
settled, in the room, or in the hands of the control. -/
structure Tracked (verify : Ed25519Verify) (sha256 : Sha256) (sinks : List Sink)
    (h : List Observation) (s : State) (room : List Verified) : Prop where
  sinks_eq : s.pipeline.sinks = sinks
  holds : s.stage.Holds room
  balance : (taken h).Perm
    ((outcomes h).map Prod.fst ++ (room ++ s.control.pending).map Verified.message)
  genuine : ∀ v ∈ room ++ s.control.pending, Genuine verify h v
  knows : s.control.Knows sha256 sinks h
  suppressed : ∀ id ∈ s.pipeline.dedup.seen,
    Persisted sha256 sinks h id ∨ s.control.flying sha256 = some id
  explained : EventMachine.Justified (Explained verify sha256 sinks) h
  /-- Before shutdown nothing is given up. -/
  calm : s.shutdown = false → (∀ p ∈ outcomes h, p.2 ≠ .abandoned) ∧
    ∀ d, s.control.delivery? = some d → d.complete = true
  /-- Before shutdown the pipeline stops only when the stage is empty. -/
  drained : s.control = .stopped → s.shutdown = false → s.stage.pending = 0

namespace Tracked

variable {verify : Ed25519Verify} {sha256 : Sha256} {sinks : List Sink} {h : List Observation}
  {s : State} {room : List Verified}

theorem start {pipeline : Pipeline} (hsinks : pipeline.sinks = sinks)
    (hseen : pipeline.dedup.seen = ∅) : Tracked verify sha256 sinks [] (.start pipeline) [] where
  sinks_eq := hsinks
  holds := holds_new _
  balance := .refl _
  genuine _ hv := absurd hv List.not_mem_nil
  knows := trivial
  suppressed id hid := by
    have hid' : id ∈ pipeline.dedup.seen := hid
    rw [hseen] at hid'
    exact absurd hid' (Finset.notMem_empty id)
  explained := EventMachine.justified_nil _
  calm _ := ⟨fun _ hp => absurd hp List.not_mem_nil, fun _ hd => absurd hd (by simp [State.start,
    Control.delivery?])⟩
  drained hstop := absurd hstop (by simp [State.start])

/-- An observation that neither takes nor settles a message. -/
theorem observe (t : Tracked verify sha256 sinks h s room) {a : Observation}
    (htook : a.took? = none) (hsettled : a.settled? = none)
    (he : Explained verify sha256 sinks h a) : Tracked verify sha256 sinks (h ++ [a]) s room := by
  have htaken : taken (h ++ [a]) = taken h := by
    rw [taken_append]
    simp [taken, htook]
  have houtcomes : outcomes (h ++ [a]) = outcomes h := by
    rw [outcomes_append]
    simp [outcomes, hsettled]
  refine ⟨t.sinks_eq, t.holds, ?_, fun v hv => (t.genuine v hv).append _, t.knows.append _, ?_,
    EventMachine.justified_append_singleton.mpr ⟨t.explained, he⟩, ?_, t.drained⟩
  · rw [htaken, houtcomes]
    exact t.balance
  · exact fun id hid => (t.suppressed id hid).imp_left (·.append _)
  · rw [houtcomes]
    exact t.calm

/-- The control goes on with the same messages in its hands. -/
theorem goto (t : Tracked verify sha256 sinks h s room) {c : Control} (dedup : DedupCache)
    (hpending : c.pending.Perm s.control.pending) (hknows : c.Knows sha256 sinks h)
    (hseen : ∀ id ∈ dedup.seen,
      (id ∈ s.pipeline.dedup.seen ∧ s.control.flying sha256 ≠ some id) ∨ c.flying sha256 = some id)
    (hcomplete : s.shutdown = false → ∀ d, c.delivery? = some d → d.complete = true)
    (hstop : c = .stopped → s.shutdown = false → s.stage.pending = 0) :
    Tracked verify sha256 sinks h
      { s with pipeline := { s.pipeline with dedup }, control := c } room where
  sinks_eq := t.sinks_eq
  holds := t.holds
  balance := t.balance.trans (((hpending.symm.append_left room).map _).append_left _)
  genuine v hv := t.genuine v ((hpending.append_left room).mem_iff.mp hv)
  knows := hknows
  suppressed id hid := by
    rcases hseen id hid with ⟨hold, hflying⟩ | hflying
    · exact .inl ((t.suppressed id hold).resolve_right hflying)
    · exact .inr hflying
  explained := t.explained
  calm hoff := ⟨(t.calm hoff).1, hcomplete hoff⟩
  drained := hstop

theorem move (t : Tracked verify sha256 sinks h s room) {c : Control}
    (hpending : c.pending.Perm s.control.pending) (hknows : c.Knows sha256 sinks h)
    (hidle : s.control.delivery? = none) (hidle' : c.delivery? = none)
    (hstop : c = .stopped → s.shutdown = false → s.stage.pending = 0) :
    Tracked verify sha256 sinks h { s with control := c } room := by
  refine t.goto s.pipeline.dedup hpending hknows (fun id hid => .inl ⟨hid, ?_⟩) ?_ hstop
  · rw [Control.flying, hidle]
    exact Option.some_ne_none id |>.symm
  · intro _ d hd
    rw [hidle'] at hd
    exact absurd hd (by simp)

/-- A message in the hands of the control is settled. -/
theorem settle (t : Tracked verify sha256 sinks h s room) {v : Verified} {c : Control}
    (dedup : DedupCache) (outcome : Outcome) (hpending : s.control.pending.Perm (v :: c.pending))
    (he : Explained verify sha256 sinks h (.settled v.message outcome))
    (hknows : c.Knows sha256 sinks h) (hidle : c.delivery? = none)
    (hseen : ∀ id ∈ dedup.seen, id ∈ s.pipeline.dedup.seen ∧ (s.control.flying sha256 = some id →
      Persisted sha256 sinks (h ++ [.settled v.message outcome]) id))
    (habandoned : outcome = .abandoned → s.shutdown = true) (hstop : c ≠ .stopped) :
    Tracked verify sha256 sinks (h ++ [.settled v.message outcome])
      { s with pipeline := { s.pipeline with dedup }, control := c } room := by
  have houtcomes : outcomes (h ++ [.settled v.message outcome]) =
      outcomes h ++ [(v.message, outcome)] := outcomes_append h _
  have htaken : taken (h ++ [.settled v.message outcome]) = taken h := by
    rw [taken_append]
    exact List.append_nil _
  refine ⟨t.sinks_eq, t.holds, ?_, fun v' hv' => (t.genuine v' ?_).append _, hknows.append _, ?_,
    EventMachine.justified_append_singleton.mpr ⟨t.explained, he⟩, ?_, fun h => absurd h hstop⟩
  · rw [htaken, houtcomes, List.map_append, List.append_assoc]
    refine t.balance.trans (List.Perm.append_left _ ?_)
    refine ((hpending.append_left room).map _).trans ?_
    exact List.Perm.map _ List.perm_middle
  · rw [(hpending.append_left room).mem_iff]
    rcases List.mem_append.mp hv' with hroom | hc
    · exact List.mem_append_left _ hroom
    · exact List.mem_append_right _ (List.mem_cons_of_mem v hc)
  · intro id hid
    obtain ⟨hold, hflying⟩ := hseen id hid
    rcases t.suppressed id hold with hp | hf
    · exact .inl (hp.append _)
    · exact .inl (hflying hf)
  · intro hoff
    refine ⟨fun p hp => ?_, fun d hd => absurd (hidle.symm.trans hd) (by simp)⟩
    rw [houtcomes] at hp
    rcases List.mem_append.mp hp with hp | hp
    · exact (t.calm hoff).1 p hp
    · obtain rfl := List.mem_singleton.mp hp
      intro heq
      exact absurd (hoff.symm.trans (habandoned heq)) (by simp)

theorem loop {c : Control} (t : Tracked verify sha256 sinks h { s with control := c } room)
    (hpending : c.pending = []) (hidle : c.delivery? = none) :
    Tracked verify sha256 sinks h s.loop room := by
  refine t.move ?_ ?_ hidle ?_ ?_
  · show Control.pending (if _ then _ else _) |>.Perm c.pending
    rw [hpending]
    split_ifs <;> exact .refl _
  · split_ifs <;> trivial
  · split_ifs <;> rfl
  · intro hstop _
    by_cases hbusy : s.ingressOpen || s.stage.isBusy
    · rw [if_pos hbusy] at hstop
      exact absurd hstop (by simp)
    · have hnot : ¬ s.stage.pending > 0 := fun hpos =>
        hbusy (by rw [AuthStage.isBusy, decide_eq_true hpos, Bool.or_true])
      exact Nat.eq_zero_of_not_pos hnot

theorem proceed (rest : Remaining)
    (t : Tracked verify sha256 sinks h { s with control := .resolving rest } room) :
    Tracked verify sha256 sinks h (s.proceed rest) room := by
  obtain ⟨decision, messages, held⟩ := rest
  cases messages with
  | cons v messages => exact t
  | nil =>
    cases held with
    | none => exact t.loop rfl rfl
    | some v => exact t.move (.refl _) trivial rfl rfl (fun h => absurd h (by simp))

/-- The end of a delivery, or its next sink. -/
theorem fanOut {d : Delivery}
    (t : Tracked verify sha256 sinks h { s with control := .delivering d } room) :
    Tracked verify sha256 sinks (h ++ (s.fanOut sha256 d).2) (s.fanOut sha256 d).1 room := by
  have hd : d.Underway sha256 sinks h := t.knows
  unfold State.fanOut
  dsimp only
  split_ifs with hindex hcomplete
  · rw [List.append_nil]
    exact t
  · -- every sink has been asked, and no required one was given up
    have htaken : TakenByRequired sinks h (d.message.accepted sha256) := by
      intro i sink hi hreq
      have hlt : i < s.pipeline.sinks.length := by
        have hsinks : s.pipeline.sinks = sinks := t.sinks_eq
        rw [hsinks]
        exact (List.getElem?_eq_some_iff.mp hi).1
      exact hd.taken hcomplete i (by omega) sink hi hreq
    have hgenuine : Genuine verify h d.message :=
      t.genuine _ (List.mem_append_right _ List.mem_cons_self)
    refine proceed _ (t.settle (v := d.message) (c := .resolving d.rest)
      s.pipeline.dedup _ (.refl _) ⟨d.message, rfl, hgenuine, htaken⟩ hd.decided rfl
      (fun id hid => ⟨hid, fun hflying => ?_⟩) (by simp) (by simp))
    exact ⟨d.message, Option.some.inj hflying, List.mem_append_right _ List.mem_cons_self,
      htaken.append _⟩
  · refine proceed _ (t.settle (v := d.message) (c := .resolving d.rest)
      (s.pipeline.dedup.forget _) _ (.refl _) trivial hd.decided rfl
      (fun id hid => ?_) (fun _ => ?_) (by simp))
    · obtain ⟨hold, hne⟩ := mem_seen_forget.mp hid
      exact ⟨hold, fun hflying => absurd (Option.some.inj hflying).symm hne⟩
    · by_contra hoff
      exact hcomplete ((t.calm (Bool.eq_false_of_not_eq_true hoff)).2 d rfl)

/-- An allowed message is a duplicate or begins its delivery. -/
theorem accept {v : Verified} {rest : Remaining}
    (t : Tracked verify sha256 sinks h
      { s with control := .resolving { rest with messages := v :: rest.messages } } room)
    (hallowed : Answered h v (.ok true)) (now : Instant) :
    Tracked verify sha256 sinks (h ++ (s.accept sha256 now v rest).2)
      (s.accept sha256 now v rest).1 room := by
  have hrest : rest.Decided h := fun w hw => t.knows w (List.mem_cons_of_mem v hw)
  unfold State.accept
  dsimp only
  cases hins : s.pipeline.dedup.insertIfNewAt (envelopeId sha256 v.message.rawEnvelope) now with
  | mk new dedup =>
    have hnew : (s.pipeline.dedup.insertIfNewAt (envelopeId sha256 v.message.rawEnvelope) now).1 =
        new := by rw [hins]
    have hseen : ∀ id ∈ dedup.seen, id ∈ s.pipeline.dedup.seen ∨
        (id = envelopeId sha256 v.message.rawEnvelope ∧ new = true) := by
      intro id hid
      have hid' : id ∈ (s.pipeline.dedup.insertIfNewAt
          (envelopeId sha256 v.message.rawEnvelope) now).2.seen := by rwa [hins]
      have hmem := mem_seen_of_mem_insertIfNewAt hid'
      rwa [hins] at hmem
    cases new with
    | true =>
      refine fanOut (t.goto dedup (.refl _) ?_ (fun id hid => ?_) ?_ (by simp))
      · exact ⟨hallowed, hrest, fun _ i hi => absurd hi (Nat.not_lt_zero i)⟩
      · rcases hseen id hid with hold | ⟨rfl, -⟩
        · exact .inl ⟨hold, by simp [Control.flying, Control.delivery?]⟩
        · exact .inr rfl
      · intro _ d hd
        obtain rfl := Option.some.inj hd
        rfl
    | false =>
      have hpersisted : Persisted sha256 sinks h (envelopeId sha256 v.message.rawEnvelope) :=
        (t.suppressed _ (mem_seen_of_insertIfNewAt_eq_false hnew)).resolve_right
          (by simp [Control.flying, Control.delivery?])
      refine proceed _ (t.settle (v := v) (c := .resolving rest) dedup _ (.refl _)
        ⟨rfl, hpersisted⟩ hrest rfl (fun id hid => ?_) (by simp) (by simp))
      refine ⟨(hseen id hid).resolve_right (by simp), fun hflying => ?_⟩
      exact absurd hflying (by simp [Control.flying, Control.delivery?])

/-- The decision about the first message of a resolution. -/
theorem decide {v : Verified} {rest : Remaining}
    (t : Tracked verify sha256 sinks h
      { s with control := .resolving { rest with messages := v :: rest.messages } } room)
    (now : Instant) :
    Tracked verify sha256 sinks (h ++ (s.decide sha256 now v rest).2)
      (s.decide sha256 now v rest).1 room := by
  have hanswered : Answered h v rest.decision := t.knows v List.mem_cons_self
  have hrest : rest.Decided h := fun w hw => t.knows w (List.mem_cons_of_mem v hw)
  have hgenuine : Genuine verify h v := t.genuine v (List.mem_append_right _ List.mem_cons_self)
  have hidle : ∀ id ∈ s.pipeline.dedup.seen, id ∈ s.pipeline.dedup.seen ∧
      (Control.flying sha256 (.resolving { rest with messages := v :: rest.messages }) = some id →
        ∀ k, Persisted sha256 sinks k id) :=
    fun id hid => ⟨hid, fun hf => absurd hf (by simp [Control.flying, Control.delivery?])⟩
  unfold State.decide
  cases hdecision : rest.decision with
  | error error =>
    rw [hdecision] at hanswered
    exact proceed _ (t.settle (c := .resolving rest) s.pipeline.dedup _ (.refl _)
      ⟨v, rfl, hgenuine, hanswered⟩ hrest rfl
      (fun id hid => ⟨hid, fun hf => (hidle id hid).2 hf _⟩) (by simp) (by simp))
  | ok allowed =>
    rw [hdecision] at hanswered
    cases allowed with
    | true => exact t.accept hanswered now
    | false =>
      exact proceed _ (t.settle (c := .resolving rest) s.pipeline.dedup _ (.refl _)
        ⟨v, rfl, hgenuine, hanswered⟩ hrest rfl
        (fun id hid => ⟨hid, fun hf => (hidle id hid).2 hf _⟩) (by simp) (by simp))

/-- The messages of a finished lookup pass from the stage to the control. -/
theorem resolve (t : Tracked verify sha256 sinks h s room) {held : Option Verified}
    (hpending : s.control.pending = held.toList) (hidle : s.control.delivery? = none)
    {ids : TaskIds} {id : TaskId} {taskEnd : TaskEnd} {s' : State} {o : List Observation}
    (hresolve : s.resolve ids id taskEnd held = some (s', o)) :
    ∃ room', Tracked verify sha256 sinks (h ++ o) s' room' := by
  cases hid : s.stage.running.lookup id with
  | none => simp [State.resolve, AuthStage.join, hid] at hresolve
  | some sensorId =>
    obtain ⟨stage', hnext, -, hholds⟩ := t.holds.nextResolution ids hid taskEnd
    have hjoin := t.holds.join hid taskEnd
    simp only [State.resolve, hjoin, hnext, Option.bind_eq_bind, Option.bind_some] at hresolve
    obtain ⟨rfl, rfl⟩ := Prod.mk.inj (Option.some.inj hresolve)
    have ht := t.observe (a := .resolved sensorId
      ⟨taskEnd.decision, ofKey Verified.sensor sensorId room⟩) rfl rfl trivial
    refine ⟨others Verified.sensor sensorId room, proceed _ ?_⟩
    have hperm : (others Verified.sensor sensorId room ++
        (ofKey Verified.sensor sensorId room ++ held.toList)).Perm (room ++ s.control.pending) := by
      rw [hpending, ← List.append_assoc]
      exact (List.perm_append_comm.trans (ofKey_append_others_perm sensorId room)).append_right _
    refine ⟨ht.sinks_eq, hholds, ?_, ?_, ?_, ?_, ht.explained, ?_, by simp⟩
    · exact ht.balance.trans ((hperm.symm.map _).append_left _)
    · exact fun v hv => ht.genuine v (hperm.mem_iff.mp hv)
    · intro v hv
      obtain ⟨-, hsensor⟩ := mem_ofKey.mp hv
      refine .inr ⟨_, hv, List.mem_append_right _ (List.mem_singleton.mpr ?_)⟩
      rw [hsensor]
    · intro id' hid'
      refine .inl ((ht.suppressed id' hid').resolve_right ?_)
      rw [Control.flying, hidle]
      simp
    · intro hoff
      exact ⟨(ht.calm hoff).1, fun d hd => absurd hd (by simp [Control.delivery?])⟩

/-- A message taken from the channel that does not verify. -/
theorem reject (t : Tracked verify sha256 sinks h s room) {message : IngressMessage}
    {error : ProtocolError} (herror : verifyEnvelope verify message.envelope = .error error) :
    Tracked verify sha256 sinks (h ++ [.took message, .settled message (.rejected error)]) s
      room where
  sinks_eq := t.sinks_eq
  holds := t.holds
  balance := by
    rw [taken_append, outcomes_append, List.map_append, List.append_assoc]
    refine (t.balance.append_right _).trans ?_
    rw [List.append_assoc]
    exact List.perm_append_comm.append_left _
  genuine v hv := (t.genuine v hv).append _
  knows := t.knows.append _
  suppressed id hid := (t.suppressed id hid).imp_left (·.append _)
  explained := by
    have htook : EventMachine.Justified (Explained verify sha256 sinks) (h ++ [.took message]) :=
      EventMachine.justified_append_singleton.mpr ⟨t.explained, trivial⟩
    have hboth : EventMachine.Justified (Explained verify sha256 sinks)
        (h ++ [.took message] ++ [.settled message (.rejected error)]) :=
      EventMachine.justified_append_singleton.mpr ⟨htook, herror⟩
    rwa [List.append_assoc] at hboth
  calm hoff := by
    refine ⟨fun p hp => ?_, (t.calm hoff).2⟩
    rw [outcomes_append] at hp
    rcases List.mem_append.mp hp with hp | hp
    · exact (t.calm hoff).1 p hp
    · obtain rfl : p = (message, .rejected error) := List.mem_singleton.mp hp
      simp
  drained := t.drained

theorem take (t : Tracked verify sha256 sinks h s room) (hempty : s.control.pending = [])
    (hidle : s.control.delivery? = none) {message : IngressMessage} {verified : VerifiedEnvelope}
    (hverified : verifyEnvelope verify message.envelope = .ok verified) :
    Tracked verify sha256 sinks (h ++ [.took message])
      { s with control := .admitting ⟨message, verified⟩ } room where
  sinks_eq := t.sinks_eq
  holds := t.holds
  balance := by
    rw [taken_append, outcomes_append]
    refine (t.balance.append_right _).trans ?_
    rw [hempty, List.append_nil, List.append_assoc]
    show ((outcomes h).map Prod.fst ++ (room.map Verified.message ++ [message])).Perm
      ((outcomes h ++ []).map Prod.fst ++
        (room ++ [(⟨message, verified⟩ : Verified)]).map Verified.message)
    rw [List.append_nil, List.map_append]
    exact .refl _
  genuine v hv := by
    rcases List.mem_append.mp hv with hroom | hv
    · exact (t.genuine v (List.mem_append_left _ hroom)).append _
    · obtain rfl := List.mem_singleton.mp hv
      exact ⟨List.mem_append_right _ List.mem_cons_self, hverified⟩
  knows := trivial
  suppressed id hid := by
    refine .inl (((t.suppressed id hid).resolve_right ?_).append _)
    rw [Control.flying, hidle]
    simp
  explained := EventMachine.justified_append_singleton.mpr ⟨t.explained, trivial⟩
  calm hoff := by
    rw [outcomes_append]
    refine ⟨fun p hp => (t.calm hoff).1 p ?_, fun d hd => absurd hd (by simp [Control.delivery?])⟩
    simpa [outcomes, Observation.settled?] using hp
  drained hstop := absurd hstop (by simp)

/-- A message passes from the control to the stage. -/
theorem park (t : Tracked verify sha256 sinks h s room) {v : Verified}
    (hpending : s.control.pending = [v]) (hidle : s.control.delivery? = none) {stage : AuthStage}
    (hholds : stage.Holds (room ++ [v])) :
    Tracked verify sha256 sinks h { s with stage, control := .select } (room ++ [v]) where
  sinks_eq := t.sinks_eq
  holds := hholds
  balance := by
    show (taken h).Perm
      ((outcomes h).map Prod.fst ++ ((room ++ [v]) ++ []).map Verified.message)
    rw [List.append_nil, ← hpending]
    exact t.balance
  genuine w hw := by
    refine t.genuine w ?_
    rw [hpending]
    exact (List.append_nil (room ++ [v])) ▸ hw
  knows := trivial
  suppressed id hid := by
    refine .inl ((t.suppressed id hid).resolve_right ?_)
    rw [Control.flying, hidle]
    simp
  explained := t.explained
  calm hoff := ⟨(t.calm hoff).1, fun d hd => absurd hd (by simp [Control.delivery?])⟩
  drained hstop := absurd hstop (by simp)

/-- The three answers of the stage to a message. -/
theorem admission {v : Verified}
    (t : Tracked verify sha256 sinks h { s with control := .admitting v } room) (ids : TaskIds)
    (known : Option Bool) {admission : Admission} {stage : AuthStage}
    (hadmission : s.stage.admitMessage ids known v = (admission, stage)) :
    ∃ room', Tracked verify sha256 sinks (h ++ [.tried v known])
      (s.afterAdmission stage admission) room' := by
  have ht := t.observe (a := .tried v known) rfl rfl trivial
  rcases t.holds.admission ids known v hadmission with
    ⟨allowed, rfl, rfl, rfl⟩ | ⟨-, rfl, rfl, -⟩ | ⟨-, rfl, -, hholds⟩
  · refine ⟨room, proceed (s := s) ⟨.ok allowed, [v], none⟩
      (ht.move (.refl _) ?_ rfl rfl (by simp))⟩
    intro w hw
    obtain rfl := List.mem_singleton.mp hw
    exact .inl ⟨allowed, rfl, List.mem_append_right _ List.mem_cons_self⟩
  · exact ⟨room, ht.move (.refl _) trivial rfl rfl (by simp)⟩
  · exact ⟨room ++ [v], loop (ht.park rfl rfl hholds) rfl rfl⟩

/-- The delivery goes on, with the same message in hand. -/
theorem onward {c c' : Control} {d d' : Delivery}
    (t : Tracked verify sha256 sinks h { s with control := c } room)
    (hc : c = .delivering d ∨ c = .backoff d) (hc' : c' = .delivering d' ∨ c' = .backoff d')
    (hmessage : d'.message = d.message) (hrest : d'.rest = d.rest)
    (htaken : d'.complete = true → ∀ i < d'.index, ∀ sink, sinks[i]? = some sink →
      sink.required = true → .handed i (d.message.accepted sha256) (.ok ()) ∈ h)
    (hcomplete : s.shutdown = false → d.complete = true → d'.complete = true) :
    Tracked verify sha256 sinks h { s with control := c' } room := by
  have hold : c.pending = d.message :: d.rest.pending ∧ c.delivery? = some d := by
    rcases hc with rfl | rfl <;> exact ⟨rfl, rfl⟩
  have hnew : c'.pending = d'.message :: d'.rest.pending ∧ c'.delivery? = some d' := by
    rcases hc' with rfl | rfl <;> exact ⟨rfl, rfl⟩
  have hunder : d.Underway sha256 sinks h := by
    have := t.knows
    rcases hc with rfl | rfl <;> exact this
  have hunder' : d'.Underway sha256 sinks h := by
    refine ⟨?_, ?_, ?_⟩
    · rw [hmessage]
      exact hunder.allowed
    · rw [hrest]
      exact hunder.decided
    · rw [hmessage]
      exact htaken
  have hflying : c'.flying sha256 = c.flying sha256 := by
    rw [Control.flying, Control.flying, hold.2, hnew.2, Option.map_some, Option.map_some, hmessage]
  refine t.goto s.pipeline.dedup ?_ ?_ (fun id hid => ?_) (fun hoff d'' hd'' => ?_) ?_
  · show c'.pending.Perm c.pending
    rw [hnew.1, hold.1, hmessage, hrest]
  · rcases hc' with rfl | rfl <;> exact hunder'
  · by_cases hf : c.flying sha256 = some id
    · exact .inr (hflying.trans hf)
    · exact .inl ⟨hid, hf⟩
  · rw [hnew.2] at hd''
    obtain rfl := Option.some.inj hd''
    exact hcomplete hoff ((t.calm hoff).2 d hold.2)
  · rcases hc' with rfl | rfl <;> exact fun h => absurd h (by simp)

theorem handed {d : Delivery}
    (t : Tracked verify sha256 sinks h { s with control := .delivering d } room)
    (result : Except SinkError Unit) :
    Tracked verify sha256 sinks (h ++ [.handed d.index (d.message.accepted sha256) result])
      { s with control := .delivering d } room := by
  have hd : d.Underway sha256 sinks h := t.knows
  exact t.observe rfl rfl
    ⟨d.message, rfl, t.genuine _ (List.mem_append_right _ List.mem_cons_self), hd.allowed⟩

/-- The sink is done: it took the message, or it is optional. -/
theorem advance {d : Delivery}
    (t : Tracked verify sha256 sinks h { s with control := .delivering d } room) {sink : Sink}
    (hsink : s.pipeline.sinks[d.index]? = some sink)
    (hdone : sink.required = true → .handed d.index (d.message.accepted sha256) (.ok ()) ∈ h) :
    Tracked verify sha256 sinks (h ++ (s.fanOut sha256 (d.advance s.pipeline)).2)
      (s.fanOut sha256 (d.advance s.pipeline)).1 room := by
  have hd : d.Underway sha256 sinks h := t.knows
  have hsinks : s.pipeline.sinks = sinks := t.sinks_eq
  refine fanOut (t.onward (.inl rfl) (.inl rfl) rfl rfl ?_ fun _ hc => hc)
  intro hcomplete i hi other hother hreq
  rcases Nat.lt_succ_iff_lt_or_eq.mp hi with hlt | rfl
  · exact hd.taken hcomplete i hlt other hother hreq
  · rw [hsinks, hother] at hsink
    obtain rfl := Option.some.inj hsink
    exact hdone hreq

theorem requestShutdown (t : Tracked verify sha256 sinks h s room) :
    Tracked verify sha256 sinks h { s with shutdown := true } room where
  sinks_eq := t.sinks_eq
  holds := t.holds
  balance := t.balance
  genuine := t.genuine
  knows := t.knows
  suppressed := t.suppressed
  explained := t.explained
  calm hoff := absurd hoff (by simp)
  drained _ hoff := absurd hoff (by simp)

end Tracked

end Pipeline
end Robins
