import Robins.Edge.Ingress
import Robins.Pipeline.Replay

/-!
# From the transports to the chain

Every run of the gateway, with any messages, answers, failures, crashes and changes of the
configuration.  What was acknowledged is accounted for in the pipeline; what the pipeline accepted
is in the store; what is in the store becomes batches in order; and the batches are finalized in
order.  Read backwards: what the chain is given was verified and allowed.

## The accounts together

`Edge.Ingress` follows the process that runs, and `Edge.Store` the store through all processes.
`Accounted` has both, and `Grounded` says for each observation what must have happened before it:
that a message was stored in a session in which its signature was verified and its sensor allowed,
that a batch was made of messages that were stored, that a payload was submitted of a batch that
was made.  A step is grounded because the accounts hold before it (`Accounted.grounded_step`).

## The guarantees

* `chain_authentic`: whatever is stored, and whatever is finalized on the chain, goes back to
  messages that were decoded from their own bytes, verified and allowed.
* `ingress_accounted`: every message that was acknowledged over HTTP is queued, in the pipeline, or
  has one outcome, and what was accepted was stored.
* `chain_exact`: what the chain was given are the batches of the stored messages, in order, and
  what was not given to it is still in the store.

The bound on the length of a run in the first and the last is the range of the identifiers.
-/

namespace Robins

namespace Anchor

/-- A payload is submitted in the step that begins the attempt. -/
theorem Move.of_submitted {anchor : Anchor} {s s' : State} {e : Event} {o : List Observation}
    (hmove : Move anchor s e s' o) :
    (∃ batch rest attempt, e = .attempt ∧ s.control = .check (.submit batch rest) attempt ∧
      o = [.submitted batch.id batch.payload]) ∨ ∀ id payload, .submitted id payload ∉ o := by
  have hremoval : ∀ tables id id' payload, .submitted id' payload ∉ removal tables id :=
    fun tables id id' payload hmem => by
      obtain ⟨b, heq⟩ := removed_of_mem_removal hmem
      exact absurd heq (by simp)
  cases hmove with
  | submit hcontrol => exact .inl ⟨_, _, _, rfl, hcontrol, rfl⟩
  | commit =>
    refine .inr fun id payload hmem => ?_
    obtain ⟨b, heq⟩ := created_of_mem_committed hmem
    exact absurd heq (by simp)
  | transaction | confirm => exact .inr (hremoval _ _)
  | _ => exact .inr (by simp)

end Anchor

namespace Batcher

theorem not_pushed_of_gatewayStep {codecs : Codecs} {s s' : Gateway} {e : Event}
    {o : List Observation} (hstep : gatewayStep codecs s e = some (s', o))
    (he : ∀ receivedAt envelope, e ≠ .push receivedAt envelope) : ∀ m, .pushed m ∉ o := by
  intro m hmem
  cases e with
  | push receivedAt envelope => exact he _ _ rfl
  | plan config now force =>
    simp only [gatewayStep] at hstep
    split_ifs at hstep
    split at hstep
    · obtain ⟨-, rfl⟩ := Prod.mk.inj (Option.some.inj hstep)
      exact absurd hmem List.not_mem_nil
    · split at hstep <;>
      · obtain ⟨-, rfl⟩ := Prod.mk.inj (Option.some.inj hstep)
        exact absurd hmem List.not_mem_nil
  | commit createdAt =>
    simp only [gatewayStep] at hstep
    split at hstep
    · exact absurd hstep (by simp)
    · split at hstep
      · obtain ⟨-, rfl⟩ := Prod.mk.inj (Option.some.inj hstep)
        exact absurd hmem List.not_mem_nil
      · obtain ⟨-, rfl⟩ := Prod.mk.inj (Option.some.inj hstep)
        exact absurd hmem (by simp)
  | confirm id =>
    obtain ⟨-, rfl⟩ := Prod.mk.inj (Option.some.inj hstep)
    split_ifs at hmem
    · exact absurd hmem (by simp)
    · exact absurd hmem List.not_mem_nil
  | crash =>
    obtain ⟨-, rfl⟩ := Prod.mk.inj (Option.some.inj hstep)
    exact absurd hmem List.not_mem_nil

end Batcher

namespace Edge

open Protocol BatchStore Pipeline

/-! ## What must have happened before -/

/-- A message of the session: it was decoded from the bytes it carries, its signature
verified, and the policy allowed it. -/
structure Admitted (codecs : Batcher.Codecs) (verify : Ed25519Verify) (h : List Observation)
    (v : Verified) : Prop where
  queued : v.message ∈ queuedPart h
  decoded : decodeEnvelope codecs.prost v.message.rawEnvelope = .ok v.message.envelope
  genuine : Genuine verify (pipelinePart h) v
  allowed : Answered (pipelinePart h) v (.ok true)

/-- What must have happened before an observation, in a gateway first started with
`config`. -/
def Grounded (codecs : Batcher.Codecs) (verify : Ed25519Verify) (config : EdgeConfig)
    (h : List Observation) : Observation → Prop
  /- A message is stored as the process that runs has admitted it. -/
  | .store (.pushed m) => ∃ v, Admitted codecs verify (session h) v ∧
    m.envelope = v.message.rawEnvelope ∧ m.receivedAt = v.message.receivedAt
  /- A payload given to the chain opens under the configuration in force, and what is in it
  was stored. -/
  | .anchor (.submitted _ payload) => ∃ blockchain, (configuration config h).blockchain =
      some blockchain ∧ ∃ envelopes,
        Batcher.openPayload codecs blockchain.batcher.compression payload = some envelopes ∧
        ∀ envelope ∈ envelopes, ∃ m ∈ Batcher.pushes (storePart h),
          decodeEnvelope codecs.prost m.envelope = .ok envelope
  | _ => True

variable {codecs : Batcher.Codecs} {verify : Ed25519Verify} {sha256 : Sha256}
  {config : EdgeConfig} {n : ℕ} {h o : List Observation} {s s' : EdgeApp}

theorem compression_of_formatDescriptor {a b : Batcher.BatcherConfig}
    (h : a.formatDescriptor = b.formatDescriptor) : a.compression = b.compression := by
  have hname : a.compression.asStr = b.compression.asStr := congrArg FormatDescriptor.compression h
  cases ha : a.compression <;> cases hb : b.compression <;>
    first
    | rfl
    | exact absurd (ha ▸ hb ▸ hname) (by decide)

/-- **A ready batch opens** under the configuration in force, and what is in it was
stored. -/
theorem Stored.opens {c : Contents} {k : Conveyor} {runs : List (List Batcher.Decoded)} {i j : ℕ}
    (st : Stored codecs n h s c k runs i j) {blockchain : Blockchain}
    (hconfig : s.config.blockchain = some blockchain) {b : StoredBatch} (hb : b ∈ c.ready) :
    ∃ envelopes,
      Batcher.openPayload codecs blockchain.batcher.compression b.payload = some envelopes ∧
      ∀ envelope ∈ envelopes, ∃ m ∈ Batcher.pushes (storePart h),
        decodeEnvelope codecs.prost m.envelope = .ok envelope := by
  obtain ⟨batches, hread, hall⟩ := st.guarded.labelled.readyUnderFormat c.ready.length
  rw [readyBatches_eq st.batcher.holds, List.take_length] at hread
  obtain rfl := Except.ok.inj hread
  obtain ⟨d, hd, config, run, serialized, hformat, -, -, hcreated⟩ := hall b hb
  -- the format recorded is the one configured
  have hcompression : config.compression = blockchain.batcher.compression := by
    refine compression_of_formatDescriptor ?_
    have hsession := st.guarded.session blockchain.batcher (by rw [hconfig]; rfl)
    rw [hformat]
    exact Option.some.inj (Except.ok.inj (hd.symm.trans hsession))
  obtain ⟨a, ha, heq⟩ := List.mem_map.mp hcreated
  obtain rfl := Batcher.DaemonObservation.worked.inj heq
  have hmem : (⟨b.id, config.compression, b.prepared⟩ : Batcher.Created) ∈
      Batcher.created (storePart h) := List.mem_filterMap.mpr ⟨_, ha, rfl⟩
  obtain ⟨i, hi, heq⟩ := List.getElem_of_mem hmem
  obtain ⟨hlength, hall⟩ := List.forall₂_iff_get.mp st.batcher.carries
  have hcarries := hall i (hlength ▸ hi) hi
  have hrun := List.get_mem runs ⟨i, hlength ▸ hi⟩
  generalize runs.get ⟨i, hlength ▸ hi⟩ = run at hcarries hrun
  rw [List.get_eq_getElem, heq] at hcarries
  refine ⟨run.map Batcher.Decoded.envelope, ?_, ?_⟩
  · rw [← hcompression]
    exact hcarries.open_eq
  · intro envelope henvelope
    obtain ⟨d, hd, rfl⟩ := List.mem_map.mp henvelope
    obtain ⟨m, hm, -, hdecode⟩ := st.batcher.origin run hrun d hd
    exact ⟨m, hm, hdecode⟩

/-! ## Runs -/

/-- What holds after `n` events that showed `h`. -/
structure Accounted (codecs : Batcher.Codecs) (verify : Ed25519Verify) (sha256 : Sha256)
    (config : EdgeConfig) (n : ℕ) (h : List Observation) (s : EdgeApp) : Prop where
  configured : s.config = configuration config h
  serving : Serving codecs verify sha256 (session h) s
  stored : ∃ c k runs i j, Stored codecs n h s c k runs i j
  grounded : EventMachine.Justified (Grounded codecs verify config) h

/-- The observations that need ground. -/
def Observation.isPlain : Observation → Bool
  | .store (.pushed _) | .anchor (.submitted _ _) => false
  | _ => true

theorem Grounded.of_isPlain {a : Observation} (ha : a.isPlain = true) :
    Grounded codecs verify config h a := by
  cases a with
  | store b =>
    cases b with
    | pushed m => exact absurd ha (by simp [Observation.isPlain])
    | _ => trivial
  | anchor b =>
    cases b with
    | submitted id payload => exact absurd ha (by simp [Observation.isPlain])
    | _ => trivial
  | _ => trivial

theorem grounded_append (hj : EventMachine.Justified (Grounded codecs verify config) h)
    (ho : ∀ a ∈ o, a.isPlain = true) :
    EventMachine.Justified (Grounded codecs verify config) (h ++ o) := by
  refine EventMachine.justified_append.mpr ⟨hj, fun o₁ a o₂ heq => .of_isPlain (ho a ?_)⟩
  rw [heq]
  exact List.mem_append_right o₁ List.mem_cons_self

theorem Accounted.grounded_step (ac : Accounted codecs verify sha256 config n h s)
    (hmove : Move codecs verify sha256 s s' o) :
    EventMachine.Justified (Grounded codecs verify config) (h ++ o) := by
  have hplainPipeline : ∀ {l : List Pipeline.Observation},
      ∀ a ∈ l.map Observation.pipeline, a.isPlain = true := fun a ha => by
    obtain ⟨b, -, rfl⟩ := List.mem_map.mp ha
    rfl
  have hplainStore : ∀ {l : List Batcher.Observation}, (∀ m, .pushed m ∉ l) →
      ∀ a ∈ l.map Observation.store, a.isPlain = true := fun hl a ha => by
    obtain ⟨b, hb, rfl⟩ := List.mem_map.mp ha
    cases b with
    | pushed m => exact absurd hb (hl m)
    | _ => rfl
  have hplainAnchor : ∀ {l : List Anchor.Observation}, (∀ id payload, .submitted id payload ∉ l) →
      ∀ a ∈ l.map Observation.anchor, a.isPlain = true := fun hl a ha => by
    obtain ⟨b, hb, rfl⟩ := List.mem_map.mp ha
    cases b with
    | submitted id payload => exact absurd hb (hl id payload)
    | _ => rfl
  cases hmove with
  | turnAway ha =>
    refine grounded_append ac.grounded fun a hmem => ?_
    obtain rfl := List.mem_singleton.mp hmem
    rcases ha with ⟨body, rfl⟩ | ⟨body, status, text, rfl, -⟩ <;> rfl
  | post | place | radio | pushFailed | restart =>
    exact grounded_append ac.grounded (by simp [Observation.isPlain])
  | recv | pipeline | answer => exact grounded_append ac.grounded hplainPipeline
  | @push v stored tables hdelivering hdeliver =>
    refine EventMachine.justified_append_singleton.mpr ⟨ac.grounded, ?_⟩
    obtain ⟨hgenuine, hallowed, hqueued⟩ := ac.serving.delivering hdelivering
    obtain ⟨-, hdecoded⟩ := ac.serving.decoded _ hqueued
    unfold deliver at hdeliver
    split at hdeliver
    · exact absurd hdeliver (by simp)
    · obtain ⟨rfl, rfl⟩ := Prod.mk.inj (Except.ok.inj hdeliver)
      exact ⟨v, ⟨hqueued, hdecoded, hgenuine, hallowed⟩, rfl, rfl⟩
  | plan hconfig hstep =>
    exact grounded_append ac.grounded (hplainStore
      (Batcher.not_pushed_of_gatewayStep hstep (by simp)))
  | commit hconfig hbatcher hstep hanchor =>
    refine grounded_append ac.grounded fun a ha => ?_
    rcases List.mem_append.mp ha with ha | ha
    · exact hplainStore (Batcher.not_pushed_of_gatewayStep hstep (by simp)) a ha
    · rcases (Anchor.move_of_anchorStep hanchor).of_submitted with ⟨_, _, _, heq, -⟩ | hnone
      · exact absurd heq (by simp)
      · exact hplainAnchor hnone a ha
  | @anchor blockchain e a seen hconfig hown hstep =>
    rcases (Anchor.move_of_anchorStep hstep).of_submitted with
      ⟨batch, rest, attempt, rfl, hcontrol, rfl⟩ | hnone
    · -- the first batch that is ready is submitted
      obtain ⟨c, k, runs, i, j, st⟩ := ac.stored
      have htask : s.anchorState.control.task? = some (.submit batch rest) := by rw [hcontrol]; rfl
      obtain ⟨tail, hdrop⟩ := st.anchor.fits.task _ htask
      have hready : batch ∈ c.ready := by
        rw [st.anchor.shelf.ready, hdrop]
        exact List.mem_cons_self
      refine EventMachine.justified_append_singleton.mpr ⟨ac.grounded, blockchain, ?_,
        st.opens hconfig hready⟩
      rw [← ac.configured]
      exact hconfig
    · refine grounded_append ac.grounded fun a ha => ?_
      rcases List.mem_append.mp ha with ha | ha
      · refine hplainStore (fun m hm => ?_) a ha
        unfold confirmation at hm
        split at hm
        · exact absurd hm List.not_mem_nil
        · split_ifs at hm
          · exact absurd hm (by simp)
          · exact absurd hm List.not_mem_nil
      · exact hplainAnchor hnone a ha

variable (codecs verify sha256) in
/-- A process that was started has a session before it. -/
theorem serving_of_start {store : Tables} {faults : StoreCall → Option StoreError}
    (hstart : EdgeApp.start config faults store = some s) :
    s.config = config ∧ Serving codecs verify sha256 [] s := by
  unfold EdgeApp.start at hstart
  split at hstart
  · obtain rfl := Option.some.inj hstart
    exact ⟨rfl, .spawn config _⟩
  · split_ifs at hstart
    split at hstart
    · exact absurd hstart (by simp)
    · obtain rfl := Option.some.inj hstart
      exact ⟨rfl, .spawn config _⟩

/-- A step serves on, or starts a session of its own. -/
theorem serving_step (sv : Serving codecs verify sha256 (session h) s)
    (hmove : Move codecs verify sha256 s s' o) :
    Serving codecs verify sha256 (session (h ++ o)) s' := by
  rcases hmove.session with ⟨hsession, -⟩ | ⟨config', faults, rfl, hstart⟩
  · rw [session_append hsession]
    exact sv.step hmove hsession
  · rw [session_started]
    exact (serving_of_start codecs verify sha256 hstart).2

/-- The process that runs serves, whatever store it was started on. -/
theorem serving_of_exec {store : Tables} {faults : StoreCall → Option StoreError} {s₀ : EdgeApp}
    (hstart : EdgeApp.start config faults store = some s₀) {es : List Event}
    (hrun : (edge codecs verify sha256).exec s₀ es = some (s, h)) :
    Serving codecs verify sha256 (session h) s :=
  EventMachine.exec_induction (P := fun _ h s => Serving codecs verify sha256 (session h) s)
    (serving_of_start codecs verify sha256 hstart).2
    (fun _ _ _ _ _ _ _ sv hstep => serving_step sv (move_of_edgeStep hstep)) hrun

theorem Accounted.step (hc : codecs.Lawful) (ac : Accounted codecs verify sha256 config n h s)
    (hn : n < 2 ^ 32) (hmove : Move codecs verify sha256 s s' o) :
    Accounted codecs verify sha256 config (n + 1) (h ++ o) s' := by
  obtain ⟨c, k, runs, i, j, st⟩ := ac.stored
  have hfits : ∀ v, s.delivering = some v → v.message.rawEnvelope.length ≤ isizeMax := fun v hv =>
    (ac.serving.decoded _ (ac.serving.delivering hv).2.2).1
  refine ⟨?_, serving_step ac.serving hmove, st.step hc hn hfits hmove, ac.grounded_step hmove⟩
  rcases hmove.session with ⟨hsession, hconfig⟩ | ⟨config', faults, rfl, hstart⟩
  · rw [hconfig, configuration_append config hsession]
    exact ac.configured
  · rw [configuration_started]
    exact (serving_of_start codecs verify sha256 hstart).1

/-- **Every run is accounted for**, from a new store on and while the numbers last. -/
theorem accounted_of_exec (hc : codecs.Lawful) {faults : StoreCall → Option StoreError}
    {s₀ : EdgeApp} (hstart : EdgeApp.start config faults .create = some s₀) {es : List Event}
    (hrun : (edge codecs verify sha256).exec s₀ es = some (s, h)) (hlen : es.length < 2 ^ 32) :
    Accounted codecs verify sha256 config es.length h s := by
  revert hlen
  refine EventMachine.exec_induction (P := fun es h s => es.length < 2 ^ 32 →
    Accounted codecs verify sha256 config es.length h s) ?_ ?_ hrun
  · intro _
    obtain ⟨hconfig, hserving⟩ := serving_of_start codecs verify sha256 hstart
    exact ⟨hconfig, hserving, ⟨_, _, _, _, _, .start codecs hstart⟩, EventMachine.justified_nil _⟩
  · intro es h s e t o _ ih hstep hlen
    rw [List.length_append, List.length_singleton] at hlen ⊢
    exact (ih (by omega)).step hc (by omega) (move_of_edgeStep hstep)

/-! A reading is posted, and a body that is none; the durable sink fails once; the process
ends after the batch was finalized and before it was confirmed. -/

def readingConfig : EdgeConfig where
  maxBodyBytes := 65536
  ingressBuffer := 16
  authLimits := .default
  dedupCapacity := 16
  dedupTtl := 5000
  pubsub := false
  blockchain := some ⟨Batcher.plainConfig, ⟨.default, Batcher.maxPayloadSize⟩⟩

def readingRun : List Event :=
  [.post rawReading ⟨7⟩, .post [255] ⟨8⟩, .recv, .pipeline (.admission .counting (some true)),
    .pipeline (.handle 0), .push (some (.database "disk full")), .answer, .pipeline .slept,
    .push none, .answer, .plan ⟨9⟩ true, .commit ⟨10⟩, .anchor .attempt, .anchor .loaded,
    .anchor .attempt, .anchor (.target (.ok ⟨"0x1", "0x2"⟩)), .restart readingConfig fun _ => none,
    .anchor .attempt, .anchor .loaded, .anchor .attempt,
    .anchor (.target (.ok ⟨"0x3", "0x4"⟩)), .anchor .attempt, .anchor .confirmed]

theorem exec_readingRun : ∃ s₀ s h,
    EdgeApp.start readingConfig (fun _ => none) .create = some s₀ ∧
    (edge Batcher.plainCodecs verifyReading sha256Reading).exec s₀ readingRun = some (s, h) ∧
    acknowledged h = [rawReading] ∧
    (outcomes (pipelinePart h)).map Prod.fst = [⟨reading, rawReading, ⟨.http, none⟩, ⟨7⟩⟩] ∧
    (Batcher.created (storePart h)).map Batcher.Created.id = [0] ∧
    (Anchor.finalizations (anchorPart h)).map Prod.fst = [0, 0] := by
  have hshown : ((EdgeApp.start readingConfig (fun _ => none) .create).bind fun s₀ =>
      ((edge Batcher.plainCodecs verifyReading sha256Reading).exec s₀ readingRun).map fun p =>
        (acknowledged p.2, (outcomes (pipelinePart p.2)).map Prod.fst,
          (Batcher.created (storePart p.2)).map Batcher.Created.id,
          (Anchor.finalizations (anchorPart p.2)).map Prod.fst)) =
      some ([rawReading], [⟨reading, rawReading, ⟨.http, none⟩, ⟨7⟩⟩], [0], [0, 0]) := by
    decide +kernel
  obtain ⟨s₀, hstart, hrest⟩ := Option.bind_eq_some_iff.mp hshown
  obtain ⟨⟨s, h⟩, hrun, hh⟩ := Option.map_eq_some_iff.mp hrest
  simp only [Prod.mk.injEq] at hh
  exact ⟨s₀, s, h, hstart, hrun, hh⟩

/-! ## The guarantees -/

/-- **What reaches the chain is authentic.**  In every run of fewer than `2 ^ 32` events on a new
store, with any faults, crashes and changes of the configuration: whatever is stored was decoded
from its own bytes, verified and allowed in the process that stored it, and whatever is submitted
opens under the configuration in force into envelopes that were stored before.  The bound is that
of the sequence numbers and batch identifiers, which count up and are never used twice. -/
theorem chain_authentic (codecs : Batcher.Codecs) (hc : codecs.Lawful) (verify : Ed25519Verify)
    (sha256 : Sha256) (config : EdgeConfig) (faults : StoreCall → Option StoreError)
    (s₀ : EdgeApp) (hstart : EdgeApp.start config faults .create = some s₀) (es : List Event)
    (s : EdgeApp) (h : List Observation)
    (hrun : (edge codecs verify sha256).exec s₀ es = some (s, h)) (hlen : es.length < 2 ^ 32) :
    EventMachine.Justified (Grounded codecs verify config) h :=
  (accounted_of_exec hc hstart hrun hlen).grounded

theorem chain_authentic_readingRun : ∃ s₀ s h,
    (edge Batcher.plainCodecs verifyReading sha256Reading).exec s₀ readingRun = some (s, h) ∧
    (Anchor.finalizations (anchorPart h)).map Prod.fst = [0, 0] ∧
    EventMachine.Justified (Grounded Batcher.plainCodecs verifyReading readingConfig) h := by
  obtain ⟨s₀, s, h, hstart, hrun, -, -, -, hfinalized⟩ := exec_readingRun
  exact ⟨s₀, s, h, hrun, hfinalized, chain_authentic _ Batcher.plainCodecs_lawful _ _ _ _ s₀ hstart
    readingRun s h hrun (by decide)⟩

/-- What the process that runs has made of the messages it received, in a state reached with
the history `h`. -/
structure Ingested (h : List Observation) (s : EdgeApp) : Prop where
  /-- Exactly the messages posted to the channel were acknowledged, in their order. -/
  acknowledged : acknowledged (session h) = posted (queuedPart (session h))
  /-- The pipeline has taken them in the order in which they came; the rest waits. -/
  queued : queuedPart (session h) = taken (pipelinePart (session h)) ++ s.channel.items
  bounded : s.channel.items.length ≤ max s.config.ingressBuffer 1
  /-- What was taken has one outcome or is in the pipeline. -/
  settled : (taken (pipelinePart (session h))).Perm
    ((outcomes (pipelinePart (session h))).map Prod.fst ++ s.pipeline.inside)
  /-- Before shutdown nothing is given up. -/
  kept : s.pipeline.shutdown = false →
    ∀ p ∈ outcomes (pipelinePart (session h)), p.2 ≠ .abandoned
  /-- With anchoring, what was accepted was stored in this session, with its bytes and the time
  at which it was received. -/
  durable : s.config.blockchain.isSome → ∀ message,
    (message, .accepted) ∈ outcomes (pipelinePart (session h)) →
      ∃ m ∈ Batcher.pushes (storePart (session h)),
        m.envelope = message.rawEnvelope ∧ m.receivedAt = message.receivedAt

/-- **No acknowledged message is lost on the way to the store.**  In every run on any store, of any
length, with any codecs, faults, crashes and changes of the configuration: what the process that
runs has acknowledged is what was posted to its channel; the pipeline takes it in that order; each
message taken is settled once or is inside; and with anchoring the accepted ones were stored. -/
theorem ingress_accounted (codecs : Batcher.Codecs) (verify : Ed25519Verify) (sha256 : Sha256)
    (config : EdgeConfig) (faults : StoreCall → Option StoreError) (store : Tables) (s₀ : EdgeApp)
    (hstart : EdgeApp.start config faults store = some s₀) (es : List Event) (s : EdgeApp)
    (h : List Observation) (hrun : (edge codecs verify sha256).exec s₀ es = some (s, h)) :
    Ingested h s := by
  have sv := serving_of_exec hstart hrun
  obtain ⟨room, t⟩ := sv.pipeline
  refine ⟨sv.acknowledged, sv.queued, ?_, t.balance.trans (t.inside_perm.symm.append_left _),
    fun hoff => (t.calm hoff).1, ?_⟩
  · have hle := s.channel.length_le
    rw [sv.capacity] at hle
    omega
  · intro hsome message hmem
    obtain ⟨a, ha, heq⟩ := List.mem_filterMap.mp hmem
    obtain rfl : a = .settled message .accepted := by
      cases a with
      | settled message' outcome =>
        obtain ⟨rfl, rfl⟩ := Prod.mk.inj (Option.some.inj heq)
        rfl
      | _ => exact absurd heq (by simp [Observation.settled?])
    obtain ⟨h₁, h₂, hsplit, v, rfl, -, htaken⟩ := t.explained.exists_of_mem ha
    -- the batch sink is the first, and it is required
    have hfirst : ∃ sink, s.config.sinks[0]? = some sink ∧ sink.required = true := by
      rw [EdgeConfig.sinks, if_pos hsome]
      exact ⟨_, rfl, rfl⟩
    obtain ⟨sink, hsink, hrequired⟩ := hfirst
    refine sv.durable hsome (v.accepted sha256) ?_
    rw [hsplit]
    exact List.mem_append_left _ (htaken 0 sink hsink hrequired)

theorem ingress_accounted_readingRun : ∃ s₀ s h,
    (edge Batcher.plainCodecs verifyReading sha256Reading).exec s₀ readingRun = some (s, h) ∧
    acknowledged h = [rawReading] ∧ Ingested h s := by
  obtain ⟨s₀, s, h, hstart, hrun, hacknowledged, -⟩ := exec_readingRun
  exact ⟨s₀, s, h, hrun, hacknowledged,
    ingress_accounted _ _ _ _ _ _ s₀ hstart readingRun s h hrun⟩

/-- What is on the chain and what is left in the store, in a state reached with the history
`h`. -/
structure Anchored (codecs : Batcher.Codecs) (h : List Observation) (s : EdgeApp) : Prop where
  /-- Every stored message is pending, in one batch, or rejected. -/
  conserved : Batcher.Conserved codecs s.gateway (storePart h)
  /-- The payloads finalized, without repetitions, are those of the first batches; the batches
  hold the batched messages in the order in which they were stored; and all batches are in
  the store but those removed, which were finalized. -/
  chain : ∃ (removed finalized : ℕ) (contents : List (List SignedEnvelope)),
    removed ≤ finalized ∧ finalized ≤ removed + 1 ∧
    (Anchor.finalizations (anchorPart h)).destutter (· ≠ ·) =
      ((Batcher.created (storePart h)).take finalized).map (fun b => (b.id, b.batch.payload)) ∧
    (Batcher.created (storePart h)).map
      (fun b => Batcher.openPayload codecs b.compression b.batch.payload) = contents.map some ∧
    (Batcher.batched s.gateway (storePart h)).map
      (fun m => decodeEnvelope codecs.prost m.envelope) = contents.flatten.map .ok ∧
    ∃ ready : List StoredBatch,
      (∀ limit, readyBatches s.gateway.tables limit = .ok (ready.take limit)) ∧
      ready.map (fun b => (b.id, b.prepared)) =
        ((Batcher.created (storePart h)).drop removed).map fun b => (b.id, b.batch)

/-- **The chain holds what was stored, once, in order.**  In every run of fewer than `2 ^ 32`
events on a new store, with any faults, crashes and changes of the configuration: a message that
was stored is pending, in one batch, or rejected; the batches hold the batched messages in the
order in which they were stored; the payloads finalized, without repetitions, are those of the
first batches; and all batches are in the store but those removed, which were finalized. -/
theorem chain_exact (codecs : Batcher.Codecs) (hc : codecs.Lawful) (verify : Ed25519Verify)
    (sha256 : Sha256) (config : EdgeConfig) (faults : StoreCall → Option StoreError)
    (s₀ : EdgeApp) (hstart : EdgeApp.start config faults .create = some s₀) (es : List Event)
    (s : EdgeApp) (h : List Observation)
    (hrun : (edge codecs verify sha256).exec s₀ es = some (s, h)) (hlen : es.length < 2 ^ 32) :
    Anchored codecs h s := by
  obtain ⟨c, k, runs, i, j, st⟩ := (accounted_of_exec hc hstart hrun hlen).stored
  have hstored : (Anchor.stored .fresh (anchorPart h)).map (fun b => (b.id, b.prepared)) =
      (Batcher.created (storePart h)).map fun b => (b.id, b.batch) := st.created
  refine ⟨st.batcher.conserved hlen, i, j, runs.map (List.map Batcher.Decoded.envelope),
    st.anchor.shelf.le, st.anchor.shelf.le_succ, ?_, st.batcher.opened, st.batcher.decoded, c.ready,
    readyBatches_eq st.batcher.holds, ?_⟩
  · have hsubmission : Anchor.submission =
        (fun p : ℕ × PreparedBatch => (p.1, p.2.payload)) ∘ fun b => (b.id, b.prepared) := rfl
    rw [st.anchor.shelf.finalized, hsubmission, ← List.map_map, List.map_take, hstored,
      ← List.map_take, List.map_map]
    rfl
  · rw [st.anchor.shelf.ready, List.map_drop, hstored, ← List.map_drop]

theorem chain_exact_readingRun : ∃ s₀ s h,
    (edge Batcher.plainCodecs verifyReading sha256Reading).exec s₀ readingRun = some (s, h) ∧
    (Anchor.finalizations (anchorPart h)).map Prod.fst = [0, 0] ∧
    Anchored Batcher.plainCodecs h s := by
  obtain ⟨s₀, s, h, hstart, hrun, -, -, -, hfinalized⟩ := exec_readingRun
  exact ⟨s₀, s, h, hrun, hfinalized, chain_exact _ Batcher.plainCodecs_lawful _ _ _ _ s₀ hstart
    readingRun s h hrun (by decide)⟩

end Edge
end Robins
