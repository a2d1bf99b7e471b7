import Robins.Pipeline.DiskFirst
import Robins.Protocol.WireCodec

/-!
# Replays inside the window

The duplicate cache is asked about the digest of the bytes a message arrived in, once the message
is allowed.  Within the lifetime of an entry the same digest is a duplicate, over whatever transport
it comes, unless the entry was evicted to make room or forgotten because its message was given up at
shutdown.

The times that count are those at which the cache is asked, not those at which the messages
arrived: a message may wait for its lookup, for a place in the stage and for the deliveries before
it, and be asked about after the entry has expired.

`CacheMove` lists what a step of the pipeline does to the cache: nothing, one insertion, or
forgetting the message under delivery.  So an entry is followed through a run by the two lemmas of
the cache (`SoundFor.mem_order`), and `replay_dropped` is about the check at its end.

The same signed message in other bytes has another digest.  A protobuf message can be written in
many ways, the signature covers the decoded fields, and so a captured envelope with a field
appended that no reader knows is accepted again (`padded_replay_accepted`).
-/

namespace Robins
namespace Pipeline

open Protocol Auth

/-! ## Calls of the duplicate cache -/

/-- The allowed message that is checked for a duplicate next. -/
def Control.checking? : Control → Option Verified
  | .resolving ⟨.ok true, v :: _, _⟩ => some v
  | _ => none

/-- The time at which a message is handled. -/
def Event.handledAt? : Event → Option Instant
  | .handle now => some now
  | _ => none

/-- The observation is that a message was given up. -/
def Observation.isAbandoned : Observation → Bool
  | .settled _ .abandoned => true
  | _ => false

section

variable (verify : Ed25519Verify) (sha256 : Sha256) (id : EnvelopeId)

/-- The step records another message, and the entry of this identifier makes room for it. -/
def Evicts (s : State) (e : Event) : Prop :=
  ∃ v ∈ s.control.checking?, ∃ now ∈ e.handledAt?,
    s.pipeline.dedup.Evicts id (envelopeId sha256 v.message.rawEnvelope) now

instance (s : State) (e : Event) : Decidable (Evicts sha256 id s e) :=
  inferInstanceAs (Decidable (∃ v ∈ s.control.checking?, ∃ now ∈ e.handledAt?, _))

/-- The step gives up the message with this identifier, which is under delivery. -/
def Forgets (s : State) (e : Event) : Prop :=
  s.control.flying sha256 = some id ∧
    ∃ p ∈ pipelineStep verify sha256 s e, p.2.any Observation.isAbandoned = true

instance (s : State) (e : Event) : Decidable (Forgets verify sha256 id s e) :=
  inferInstanceAs (Decidable (_ ∧ ∃ p ∈ pipelineStep verify sha256 s e, _))

/-- The step neither evicts nor forgets the identifier. -/
def Keeps (s : State) (e : Event) : Prop :=
  ¬ Evicts sha256 id s e ∧ ¬ Forgets verify sha256 id s e

instance (s : State) (e : Event) : Decidable (Keeps verify sha256 id s e) :=
  inferInstanceAs (Decidable (_ ∧ _))

end

section

variable {verify : Ed25519Verify} {sha256 : Sha256} {s s' : State} {o : List Observation}

/-- What a step does to the duplicate cache. -/
inductive CacheMove (sha256 : Sha256) (s : State) : Event → State → List Observation → Prop where
  | same {e : Event} {s' : State} {o : List Observation}
      (hdedup : s'.pipeline.dedup = s.pipeline.dedup) : CacheMove sha256 s e s' o
  | insert {v : Verified} {now : Instant} {s' : State} {o : List Observation}
      (hchecking : s.control.checking? = some v)
      (hdedup : s'.pipeline.dedup =
        (s.pipeline.dedup.insertIfNewAt (envelopeId sha256 v.message.rawEnvelope) now).2) :
      CacheMove sha256 s (.handle now) s' o
  | forget {d : Delivery} {e : Event} {s' : State} {o : List Observation}
      (hdelivery : s.control.delivery? = some d)
      (hdedup : s'.pipeline.dedup =
        s.pipeline.dedup.forget (envelopeId sha256 d.message.message.rawEnvelope))
      (habandoned : .settled d.message.message .abandoned ∈ o) : CacheMove sha256 s e s' o

variable (sha256) in
/-- Fanning out touches the cache only when it ends with a message given up. -/
theorem dedup_fanOut (s : State) (d : Delivery) :
    (s.fanOut sha256 d).1.pipeline.dedup = s.pipeline.dedup ∨
      (d.complete = false ∧
        (s.fanOut sha256 d).1.pipeline.dedup =
          s.pipeline.dedup.forget (envelopeId sha256 d.message.message.rawEnvelope) ∧
        .settled d.message.message .abandoned ∈ (s.fanOut sha256 d).2) := by
  unfold State.fanOut
  dsimp only
  split_ifs with hindex hcomplete
  · exact .inl rfl
  · exact .inl (by rw [pipeline_proceed])
  · refine .inr ⟨Bool.eq_false_iff.mpr hcomplete, ?_, List.mem_singleton_self _⟩
    rw [pipeline_proceed]

theorem dedup_accept (s : State) (now : Instant) (v : Verified) (rest : Remaining) :
    (s.accept sha256 now v rest).1.pipeline.dedup =
      (s.pipeline.dedup.insertIfNewAt (envelopeId sha256 v.message.rawEnvelope) now).2 := by
  unfold State.accept
  dsimp only
  split_ifs
  · rcases dedup_fanOut sha256 _ _ with hsame | ⟨hcomplete, -⟩
    · exact hsame
    · exact absurd hcomplete (by simp)
  · rw [pipeline_proceed]

/-- Deciding a message checks it, if it is allowed. -/
theorem cacheMove_decide {v : Verified} {rest : Remaining} {now : Instant}
    (hcontrol : s.control = .resolving { rest with messages := v :: rest.messages }) :
    CacheMove sha256 s (.handle now) (s.decide sha256 now v rest).1
      (s.decide sha256 now v rest).2 := by
  obtain ⟨decision, messages, held⟩ := rest
  unfold State.decide
  dsimp only
  split
  · exact .insert (v := v) (by rw [hcontrol]; rfl) (dedup_accept ..)
  · exact .same (by rw [pipeline_proceed])
  · exact .same (by rw [pipeline_proceed])

/-- Going on with a delivery leaves the cache or forgets its message. -/
theorem cacheMove_fanOut {d d' : Delivery} (hdelivery : s.control.delivery? = some d)
    (hmessage : d'.message = d.message) (e : Event) (k : List Observation) :
    CacheMove sha256 s e (s.fanOut sha256 d').1 (k ++ (s.fanOut sha256 d').2) := by
  rcases dedup_fanOut sha256 s d' with hsame | ⟨-, hforget, habandoned⟩
  · exact .same hsame
  · rw [hmessage] at hforget habandoned
    exact .forget hdelivery hforget (List.mem_append_right k habandoned)

/-- **Every step is one of these.** -/
theorem cacheMove_of_move {e : Event} (hmove : Move verify sha256 s e s' o) :
    CacheMove sha256 s e s' o := by
  cases hmove with
  | requestShutdown => exact .same rfl
  | stop hcontrol hshutdown => exact .same rfl
  | resolve hcontrol hresolve =>
    obtain ⟨⟨sensorId, _⟩, -, hresolve⟩ := Option.bind_eq_some_iff.mp hresolve
    obtain ⟨⟨resolution, stage⟩, -, hresolve⟩ := Option.bind_eq_some_iff.mp hresolve
    obtain ⟨rfl, -⟩ := Prod.mk.inj (Option.some.inj hresolve)
    exact .same (by rw [pipeline_proceed])
  | reject hcontrol herror => exact .same rfl
  | take hcontrol hverified => exact .same rfl
  | close hcontrol => exact .same rfl
  | @admission v ids known admission stage hcontrol hadmission =>
    cases admission with
    | decided allowed message =>
      exact .same (congrArg Pipeline.dedup (pipeline_proceed { s with stage } _))
    | parked => exact .same rfl
    | overflow message => exact .same rfl
  | abandon hcontrol hshutdown => exact .same rfl
  | handle hcontrol => exact cacheMove_decide hcontrol
  | failed hcontrol hsink hrequired => exact .same rfl
  | @passed d sink result hcontrol hsink hdone =>
    have hmessage : (d.advance s.pipeline).message = d.message := rfl
    exact cacheMove_fanOut (by rw [hcontrol]; rfl) hmessage _ [_]
  | slept hcontrol => exact .same rfl
  | @giveUp d hcontrol hshutdown =>
    have hmessage : ({ d with complete := false }.advance s.pipeline).message = d.message := rfl
    exact cacheMove_fanOut (by rw [hcontrol]; rfl) hmessage _ []

/-! ## The entry of a message -/

/-- The cache is sound and has the lifetime it was made with. -/
structure SoundFor (ttl : Duration) (s : State) : Prop where
  sound : s.pipeline.dedup.Sound
  ttl_eq : s.pipeline.dedup.ttl = ttl

theorem SoundFor.step {ttl : Duration} {e : Event} (h : SoundFor ttl s)
    (hmove : CacheMove sha256 s e s' o) : SoundFor ttl s' := by
  cases hmove with
  | same hdedup => exact ⟨hdedup ▸ h.sound, hdedup ▸ h.ttl_eq⟩
  | insert hchecking hdedup =>
    refine ⟨?_, ?_⟩
    · rw [hdedup]
      exact h.sound.insertIfNewAt _ _
    · rw [hdedup, DedupCache.ttl_insertIfNewAt]
      exact h.ttl_eq
  | forget hdelivery hdedup habandoned =>
    refine ⟨?_, ?_⟩
    · rw [hdedup]
      exact h.sound.forget _
    · rw [hdedup, DedupCache.ttl_forget]
      exact h.ttl_eq

/-- **A step keeps an entry** whose lifetime is not over, unless it evicts or forgets it. -/
theorem SoundFor.mem_order {ttl : Duration} {id : EnvelopeId} {expiry : Instant} {e : Event}
    (h : SoundFor ttl s) (hmem : (id, expiry) ∈ s.pipeline.dedup.order)
    (hkeeps : Keeps verify sha256 id s e) (hlive : ∀ now ∈ e.handledAt?, now < expiry)
    (hstep : pipelineStep verify sha256 s e = some (s', o)) :
    (id, expiry) ∈ s'.pipeline.dedup.order := by
  cases cacheMove_of_move (move_of_pipelineStep hstep) with
  | same hdedup =>
    rw [hdedup]
    exact hmem
  | @insert v now _ _ hchecking hdedup =>
    rw [hdedup]
    exact h.sound.mem_order_insertIfNewAt hmem (hlive now rfl) fun hevicts =>
      hkeeps.1 ⟨v, hchecking, now, rfl, hevicts⟩
  | @forget d _ _ _ hdelivery hdedup habandoned =>
    rw [hdedup]
    refine DedupCache.mem_order_forget ?_ hmem
    rintro rfl
    refine hkeeps.2 ⟨by rw [Control.flying, hdelivery]; rfl, (s', o), hstep, ?_⟩
    exact List.any_eq_true.mpr ⟨_, habandoned, rfl⟩

variable (verify sha256) in
theorem step_of_checking {v : Verified} (hchecking : s.control.checking? = some v)
    (now : Instant) :
    ∃ rest, pipelineStep verify sha256 s (.handle now) = some (s.accept sha256 now v rest) := by
  unfold Control.checking? at hchecking
  split at hchecking
  · next v' messages held hcontrol =>
    obtain rfl := Option.some.inj hchecking
    refine ⟨⟨.ok true, messages, held⟩, ?_⟩
    simp only [pipelineStep, hcontrol]
    rfl
  · exact absurd hchecking (by simp)

/-- A duplicate is settled as one, and not delivered. -/
theorem accept_of_duplicate {v : Verified} {now : Instant}
    (hold :
      (s.pipeline.dedup.insertIfNewAt (envelopeId sha256 v.message.rawEnvelope) now).1 = false)
    (rest : Remaining) :
    (s.accept sha256 now v rest).2 =
        [.settled v.message (.duplicate (envelopeId sha256 v.message.rawEnvelope))] ∧
      (s.accept sha256 now v rest).1.control.delivery? = none := by
  unfold State.accept
  dsimp only
  rw [if_neg (by rw [hold]; simp)]
  exact ⟨rfl, delivery?_proceed _ rest⟩

end

/-! ## The guarantee -/

/-- **A replay inside the window is dropped.**  An allowed message is checked at `t` and is
not a duplicate.  Then some steps are taken, none of which evicts or forgets its identifier,
on a clock that does not go back.  Whatever allowed message with the same digest is checked
next, over whatever transport it came, if it is checked before `t + ttl` it is settled as a
duplicate and goes to no sink. -/
theorem replay_dropped (verify : Ed25519Verify) (sha256 : Sha256) (limits : AuthLimits)
    (capacity : ℕ) (ttl : Duration) (sinks : List Sink) (retry : Duration × Duration)
    (es₁ es₂ : List Event) (t t' : Instant) (s₁ s₂ s₃ : State) (h₁ o₁ h₂ : List Observation)
    (v₁ v₂ : Verified)
    (hbefore : (pipelineMachine verify sha256).exec
      (.start ⟨limits, .new capacity ttl, sinks, retry⟩) es₁ = some (s₁, h₁))
    (hfirst : s₁.control.checking? = some v₁)
    (hstep : pipelineStep verify sha256 s₁ (.handle t) = some (s₂, o₁))
    (hnew : .settled v₁.message (.duplicate (envelopeId sha256 v₁.message.rawEnvelope)) ∉ o₁)
    (hbetween : (pipelineMachine verify sha256).exec s₂ es₂ = some (s₃, h₂))
    (hkeeps : (pipelineMachine verify sha256).StepsMeet
      (Keeps verify sha256 (envelopeId sha256 v₁.message.rawEnvelope)) s₂ es₂)
    (hclock : ∀ e ∈ es₂, ∀ now ∈ e.handledAt?, now ≤ t')
    (hsecond : s₃.control.checking? = some v₂)
    (hsame : envelopeId sha256 v₂.message.rawEnvelope = envelopeId sha256 v₁.message.rawEnvelope)
    (hwindow : t' < t + ttl) :
    ∃ s₄, pipelineStep verify sha256 s₃ (.handle t') = some (s₄,
        [.settled v₂.message (.duplicate (envelopeId sha256 v₂.message.rawEnvelope))]) ∧
      s₄.control.delivery? = none := by
  -- the cache before the first check
  have hsound₁ : SoundFor ttl s₁ := EventMachine.exec_induction
    (P := fun _ _ s => SoundFor ttl s) ⟨DedupCache.sound_new capacity ttl, rfl⟩
    (fun _ _ _ _ _ _ _ hs hs' => hs.step (cacheMove_of_move (move_of_pipelineStep hs'))) hbefore
  -- the first check records the identifier
  have hentry₂ : (envelopeId sha256 v₁.message.rawEnvelope, t + ttl) ∈
      s₂.pipeline.dedup.order := by
    obtain ⟨rest, haccept⟩ := step_of_checking verify sha256 hfirst t
    have heq : (s₂, o₁) = s₁.accept sha256 t v₁ rest := Option.some.inj (hstep.symm.trans haccept)
    have hs₂ : s₂ = (s₁.accept sha256 t v₁ rest).1 := congrArg Prod.fst heq
    have ho₁ : o₁ = (s₁.accept sha256 t v₁ rest).2 := congrArg Prod.snd heq
    rw [hs₂, dedup_accept, ← hsound₁.ttl_eq]
    refine hsound₁.sound.mem_order_of_new ?_
    by_contra hold
    rw [ho₁, (accept_of_duplicate (Bool.eq_false_iff.mpr hold) rest).1] at hnew
    exact hnew (List.mem_singleton_self _)
  -- the steps between keep it
  have hall : SoundFor ttl s₃ ∧ ((∀ e ∈ es₂, ∀ now ∈ e.handledAt?, now ≤ t') →
      (envelopeId sha256 v₁.message.rawEnvelope, t + ttl) ∈ s₃.pipeline.dedup.order) := by
    refine EventMachine.exec_induction_of_stepsMeet (P := fun es _ s => SoundFor ttl s ∧
      ((∀ e ∈ es, ∀ now ∈ e.handledAt?, now ≤ t') →
        (envelopeId sha256 v₁.message.rawEnvelope, t + ttl) ∈ s.pipeline.dedup.order))
      ⟨hsound₁.step (cacheMove_of_move (move_of_pipelineStep hstep)), fun _ => hentry₂⟩ ?_
      hbetween hkeeps
    rintro es h s e s' o - ⟨hsound, hmem⟩ hkeep hs'
    refine ⟨hsound.step (cacheMove_of_move (move_of_pipelineStep hs')), fun hle => ?_⟩
    obtain ⟨hle, he⟩ := List.forall_mem_append.mp hle
    refine hsound.mem_order (hmem hle) hkeep (fun now hnow => ?_) hs'
    exact (he e (List.mem_singleton_self e) now hnow).trans_lt hwindow
  have hdup := hall.1.sound.insertIfNewAt_eq_false (hall.2 hclock) hwindow
  rw [← hsame] at hdup
  obtain ⟨rest, haccept⟩ := step_of_checking verify sha256 hsecond t'
  obtain ⟨ho, hidle⟩ := accept_of_duplicate hdup rest
  exact ⟨_, by rw [haccept, ← ho], hidle⟩

/-! ## The reading, replayed -/

/-- The reading arrives and waits for its lookup. -/
def firstArrival : List Event :=
  [.ingress readingMessage, .admission .counting none,
    .lookupDone .counting 1 (.finished (.ok true))]

/-- It is delivered, and the same bytes arrive over the mesh. -/
def secondArrival : List Event :=
  [.sink (.error (.delivery "batch" "disk full")), .slept, .sink (.ok ()), .sink (.ok ()),
    .ingress { readingMessage with transport := ⟨.meshtastic, none⟩ },
    .admission .counting (some true)]

theorem replay_dropped_secondArrival : ∃ s₁ h₁ s₂ o₁ s₃ h₂ s₄ v₂,
    (pipelineMachine verifyReading fun _ => readingDigest).exec (.start diskAndGossip)
        firstArrival = some (s₁, h₁) ∧
      pipelineStep verifyReading (fun _ => readingDigest) s₁ (.handle 0) = some (s₂, o₁) ∧
      (pipelineMachine verifyReading fun _ => readingDigest).exec s₂ secondArrival =
        some (s₃, h₂) ∧
      s₃.control.checking? = some v₂ ∧ v₂.message.transport = ⟨.meshtastic, none⟩ ∧
      pipelineStep verifyReading (fun _ => readingDigest) s₃ (.handle 1000) =
        some (s₄, [.settled v₂.message (.duplicate ⟨readingDigest⟩)]) := by
  have hshown : ((pipelineMachine verifyReading fun _ => readingDigest).exec (.start diskAndGossip)
      firstArrival).bind (fun p₁ =>
        (pipelineStep verifyReading (fun _ => readingDigest) p₁.1 (.handle 0)).bind fun p₂ =>
          ((pipelineMachine verifyReading fun _ => readingDigest).exec p₂.1 secondArrival).map
            fun p₃ => (p₁.1.control.checking?.map Verified.message, outcomes p₂.2,
              decide ((pipelineMachine verifyReading fun _ => readingDigest).StepsMeet
                (Keeps verifyReading (fun _ => readingDigest) ⟨readingDigest⟩) p₂.1 secondArrival),
              p₃.1.control.checking?.map Verified.message)) =
      some (some readingMessage, [], true,
        some { readingMessage with transport := ⟨.meshtastic, none⟩ }) := by
    decide +kernel
  obtain ⟨⟨s₁, h₁⟩, hbefore, hshown⟩ := Option.bind_eq_some_iff.mp hshown
  obtain ⟨⟨s₂, o₁⟩, hstep, hshown⟩ := Option.bind_eq_some_iff.mp hshown
  obtain ⟨⟨s₃, h₂⟩, hbetween, hshown⟩ := Option.map_eq_some_iff.mp hshown
  simp only [Prod.mk.injEq, Option.map_eq_some_iff, decide_eq_true_eq] at hshown
  obtain ⟨⟨v₁, hfirst, hv₁⟩, hnone, hkeeps, v₂, hsecond, hv₂⟩ := hshown
  have hnew : .settled v₁.message (.duplicate ⟨readingDigest⟩) ∉ o₁ := fun hmem => by
    have hmem' : (v₁.message, .duplicate ⟨readingDigest⟩) ∈ outcomes o₁ :=
      List.mem_filterMap.mpr ⟨_, hmem, rfl⟩
    rw [hnone] at hmem'
    exact absurd hmem' (by simp)
  obtain ⟨s₄, hdropped, -⟩ := replay_dropped verifyReading (fun _ => readingDigest) .default 16 5000
    [⟨"batch", true⟩, ⟨"gossip", false⟩] (100, 5000) firstArrival secondArrival 0 1000 s₁ s₂ s₃ h₁
    o₁ h₂ v₁ v₂ hbefore hfirst hstep hnew hbetween hkeeps
    (by simp [secondArrival, Event.handledAt?]) hsecond rfl (by decide)
  exact ⟨s₁, h₁, s₂, o₁, s₃, h₂, s₄, v₂, hbefore, hstep, hbetween, hsecond, by rw [hv₂], hdropped⟩

/-- The reading with a field appended that no reader knows. -/
def paddedReading : Bytes := rawReading ++ [40, 0]

def paddedDigest : FixedBytes 32 :=
  ⟨[163, 4, 134, 118, 32, 189, 49, 206, 28, 57, 25, 194, 189, 102, 46, 39, 243, 93, 149, 148, 9, 48,
    98, 18, 99, 63, 248, 97, 167, 153, 254, 242], rfl⟩

/-- SHA-256 on the two. -/
def sha256Reading : Sha256 := fun bytes =>
  if bytes = paddedReading then paddedDigest else readingDigest

def paddedMessage : IngressMessage := ⟨reading, paddedReading, ⟨.meshtastic, none⟩, ⟨0⟩⟩

/-- The reading is accepted, and one second later its padded form arrives. -/
def paddedReplay : List Event :=
  [.ingress readingMessage, .admission .counting (some true), .handle 0, .sink (.ok ()),
    .sink (.ok ()), .ingress paddedMessage, .admission .counting (some true), .handle 1000,
    .sink (.ok ()), .sink (.ok ())]

/-- Both byte strings decode to the reading, the entry of the first is neither evicted nor
forgotten, and both are accepted. -/
theorem padded_replay_accepted :
    decodeEnvelope Wire.wire rawReading = .ok reading ∧
      decodeEnvelope Wire.wire paddedReading = .ok reading ∧
      (pipelineMachine verifyReading sha256Reading).StepsMeet
        (Keeps verifyReading sha256Reading (envelopeId sha256Reading rawReading))
        (.start diskAndGossip) paddedReplay ∧
      ∃ s h, (pipelineMachine verifyReading sha256Reading).exec (.start diskAndGossip)
          paddedReplay = some (s, h) ∧
        outcomes h = [(readingMessage, .accepted), (paddedMessage, .accepted)] := by
  have houtcomes : ((pipelineMachine verifyReading sha256Reading).exec (.start diskAndGossip)
      paddedReplay).map (fun p => outcomes p.2) =
        some [(readingMessage, .accepted), (paddedMessage, .accepted)] := by
    decide +kernel
  obtain ⟨⟨s, h⟩, hrun, hh⟩ := Option.map_eq_some_iff.mp houtcomes
  exact ⟨by decide +kernel, by decide +kernel, by decide +kernel, s, h, hrun, hh⟩

end Pipeline
end Robins
