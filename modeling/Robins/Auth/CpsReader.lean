import Robins.Auth.CpsCache
import Robins.Chain.Registry

/-!
# Reading the chain through the shared connection

The policy of `Auth.Cps` asks a reader, and takes any answer.  Here is the reader it is given.  It
takes the shared connection anew for each verification and for each snapshot, and never waits for
it: without a connection the call fails at once.  A verification compares the genesis hash of that
connection and looks for the root at its finalized head; a snapshot pins the finalized head of
whatever connection is published at that moment.

## One machine

The machine of this module runs the policy, its reader and the supervisor of the endpoint
together.  Its events are those of the world: the supervisor's connections come and go, and each
question to the chain is answered, or fails, at any time.  The answers that the policy is fed are
now made by the reader (`CpsPolicy.answer`) and not by the world, which has only the answers of the
chain left to give.

`WorldMove` lists the steps.  Besides the moves of the policy there are those of the reader, which
takes a connection and asks the next question by itself, and those of the supervisor, of which
all that matters is whether they publish a connection.
-/

namespace Robins
namespace Auth

open Protocol Chain

/-! ## State -/

/-- A connection: which attempt it came from, and the genesis hash of its chain. -/
structure Connection where
  number : ℕ
  genesis : FixedBytes 32
  deriving DecidableEq

/-- The policy over the chain: the subtree, and the chain it is expected on. -/
structure CpsPolicy where
  auth : CpsAuth
  expectedGenesis : FixedBytes 32

/-- Where the reader is, for a call. -/
inductive Reading where
  /-- A verification waits for the finalized head. -/
  | verifyHead (chain : Connection)
  /-- A verification waits for the root node at that head. -/
  | verifyRoot (chain : Connection)
  /-- A snapshot waits for the finalized head. -/
  | snapshotHead (chain : Connection)
  | pinned (chain : Connection)
  deriving DecidableEq

/-- The policy, the reader and the endpoint. -/
structure World (caches : Caches) where
  policy : State caches
  reading : ℕ → Option Reading
  /-- Nobody has asked for the endpoint before there is a slot. -/
  slot : Option (Slot Connection)
  connections : ℕ

def CpsPolicy.start (p : CpsPolicy) (caches : Caches) : World caches :=
  ⟨p.auth.start caches, fun _ => none, none, 0⟩

/-! ## Events and observations -/

/-- What the world contributes to a step. -/
inductive WorldEvent where
  /-- Somebody asks for the endpoint. -/
  | prefetch
  /-- A connection attempt ends, with the genesis hash of the chain. -/
  | connected (result : Except ChainError (FixedBytes 32))
  | lost
  | slept
  /-- A step of the policy that is not about its reader. -/
  | policy (e : Event)
  /-- The reader takes the shared connection. -/
  | take (call : ℕ) (inSync : Bool)
  /-- The finalized head is known. -/
  | finalized (call : ℕ) (result : Except String Unit)
  /-- It is known whether the root exists. -/
  | rootInfo (call : ℕ) (result : Except String Bool)

inductive Sighting where
  | connected (chain : Connection)
  | checked (call : ℕ) (chain : Connection)
  /-- The snapshot of a call was taken from a connection. -/
  | pinned (call : ℕ) (chain : Connection)
  | policy (o : Observation)
  deriving DecidableEq

/-! ## Steps -/

section

variable {caches : Caches}

/-- Whether an event of the policy is the answer of its reader. -/
def Event.isReader : Event → Bool
  | .verify _ _ | .snapshot _ _ => true
  | _ => false

/-- A step of the policy. -/
def CpsPolicy.feed (p : CpsPolicy) (s : World caches) (e : Event) :
    Option (World caches × List Sighting) :=
  (p.auth.step s.policy e).map fun next => ({ s with policy := next.1 }, next.2.map .policy)

/-- A step of the policy, in which the reader of a call answers. -/
def CpsPolicy.answer (p : CpsPolicy) (s : World caches) (id : ℕ) (reading : Option Reading)
    (e : Event) : Option (World caches × List Sighting) :=
  p.feed { s with reading := Function.update s.reading id reading } e

/-- A question of the reader is on its way. -/
def World.ask (s : World caches) (id : ℕ) (reading : Reading) : World caches :=
  { s with reading := Function.update s.reading id (some reading) }

/-- The supervisor goes on. -/
def World.supervised (s : World caches) (e : Supervision Connection) :
    Option (World caches) :=
  s.slot.bind fun slot => (slot.supervise e).map fun slot => { s with slot := some slot }

/-- The reader takes the shared connection, for what its call is doing. -/
def CpsPolicy.take (p : CpsPolicy) (s : World caches) (id : ℕ) (inSync : Bool) :
    Option (World caches × List Sighting) :=
  let slot := s.slot.getD .start
  let s := { s with slot := some slot }
  (s.policy.calls id).bind fun call =>
    match call.phase, s.reading id, slot.tryGet inSync with
    | .verifying, none, .error error =>
      p.answer s id none (.verify id (.error (.unavailable error.toText)))
    | .verifying, none, .ok chain =>
      if chain.genesis ≠ p.expectedGenesis then
        p.answer s id none (.verify id (.error (.chainMismatch (hexEncode p.expectedGenesis.1)
          (hexEncode chain.genesis.1))))
      else some (s.ask id (.verifyHead chain), [])
    | .snapshotting, none, .error error =>
      p.answer s id none (.snapshot id (.error (.unavailable error.toText)))
    | .snapshotting, none, .ok chain => some (s.ask id (.snapshotHead chain), [])
    | _, _, _ => none

def CpsPolicy.step (p : CpsPolicy) (s : World caches) (e : WorldEvent) :
    Option (World caches × List Sighting) :=
  match e with
  | .prefetch => some ({ s with slot := some (s.slot.getD .start) }, [])
  | .connected (.ok genesis) =>
    (s.supervised (.connected (.ok ⟨s.connections, genesis⟩))).map fun next =>
      ({ next with connections := s.connections + 1 }, [.connected ⟨s.connections, genesis⟩])
  | .connected (.error error) =>
    (s.supervised (.connected (.error error))).map fun next => (next, [])
  | .lost => (s.supervised .lost).map fun next => (next, [])
  | .slept => (s.supervised .slept).map fun next => (next, [])
  | .policy e =>
    match e with
    | .verify _ _ | .snapshot _ _ => none
    | .timeout id | .cancel id => p.answer s id none e
    | e => p.feed s e
  | .take id inSync => p.take s id inSync
  | .finalized id result =>
    match s.reading id, result with
    | some (.verifyHead chain), .ok () => some (s.ask id (.verifyRoot chain), [])
    | some (.verifyHead _), .error error =>
      p.answer s id none (.verify id (.error (.lookup error)))
    | some (.snapshotHead chain), .ok () =>
      (p.answer s id (some (.pinned chain)) (.snapshot id (.ok ()))).map fun next =>
        (next.1, .pinned id chain :: next.2)
    | some (.snapshotHead _), .error error =>
      p.answer s id none (.snapshot id (.error (.lookup error)))
    | _, _ => none
  | .rootInfo id result =>
    match s.reading id, result with
    | some (.verifyRoot chain), .ok true =>
      (p.answer s id none (.verify id (.ok ()))).map fun next =>
        (next.1, .checked id chain :: next.2)
    | some (.verifyRoot _), .ok false =>
      p.answer s id none (.verify id (.error (.rootMissing p.auth.root)))
    | some (.verifyRoot _), .error error =>
      p.answer s id none (.verify id (.error (.lookup error)))
    | _, _ => none

end

/-- The policy over the chain, as a machine. -/
def policyMachine (p : CpsPolicy) (caches : Caches) :
    EventMachine (World caches) WorldEvent Sighting := ⟨p.step⟩

/-! ## What a step can do -/

/-- An event with which a call gives its reader up. -/
def Event.GivesUp (id : ℕ) : Event → Prop
  | .verify id' (.error _) | .snapshot id' (.error _) | .timeout id' | .cancel id' => id' = id
  | _ => False

/-- A slot in which no connection is published that was not. -/
def World.PublishesNothing {caches : Caches} (s : World caches) (slot' : Option (Slot Connection)) :
    Prop :=
  ∀ slot chain, slot' = some slot → slot.state = .ready chain →
    ∃ slot₀, s.slot = some slot₀ ∧ slot₀.state = .ready chain

/-- The steps, each with the conditions under which it is taken. -/
inductive WorldMove (p : CpsPolicy) {caches : Caches} (s : World caches) :
    WorldEvent → World caches → List Sighting → Prop
  | slot {w : WorldEvent} {slot : Option (Slot Connection)} (hslot : s.PublishesNothing slot) :
    WorldMove p s w { s with slot } []
  | connected {w : WorldEvent} {slot : Slot Connection} {genesis : FixedBytes 32}
    (hslot : ∀ chain, slot.state = .ready chain → chain = ⟨s.connections, genesis⟩) :
    WorldMove p s w { s with slot := some slot, connections := s.connections + 1 }
      [.connected ⟨s.connections, genesis⟩]
  | policy {w : WorldEvent} {e : Event} {policy : State caches} {o : List Observation}
    (hreader : e.isReader = false) (hstep : p.auth.step s.policy e = some (policy, o)) :
    WorldMove p s w { s with policy } (o.map .policy)
  /-- A question of a call fails, or its time is over. -/
  | gaveUp {w : WorldEvent} {slot : Option (Slot Connection)} {e : Event} {id : ℕ}
    {policy : State caches} {o : List Observation} (hslot : s.PublishesNothing slot)
    (hevent : e.GivesUp id) (hstep : p.auth.step s.policy e = some (policy, o)) :
    WorldMove p s w { s with slot, policy, reading := Function.update s.reading id none }
      (o.map .policy)
  /-- The published connection is taken for a verification, its genesis hash is as
  expected. -/
  | verifyHead {w : WorldEvent} {slot : Slot Connection} {id : ℕ} {chain : Connection}
    (hslot : s.PublishesNothing (some slot)) (hready : slot.state = .ready chain)
    (hgenesis : chain.genesis = p.expectedGenesis) (hreading : s.reading id = none) :
    WorldMove p s w { s with
      slot := some slot
      reading := Function.update s.reading id (some (.verifyHead chain)) } []
  | verifyRoot {w : WorldEvent} {id : ℕ} {chain : Connection}
    (hreading : s.reading id = some (.verifyHead chain)) :
    WorldMove p s w { s with reading := Function.update s.reading id (some (.verifyRoot chain)) } []
  /-- The chain answers that the root is there. -/
  | checked {id : ℕ} {chain : Connection} {policy : State caches} {o : List Observation}
    (hreading : s.reading id = some (.verifyRoot chain))
    (hstep : p.auth.step s.policy (.verify id (.ok ())) = some (policy, o)) :
    WorldMove p s (.rootInfo id (.ok true))
      { s with policy, reading := Function.update s.reading id none }
      (.checked id chain :: o.map .policy)
  /-- The published connection is taken for a snapshot. -/
  | snapshotHead {w : WorldEvent} {slot : Slot Connection} {id : ℕ} {call : Call}
    {chain : Connection}
    (hslot : s.PublishesNothing (some slot)) (hready : slot.state = .ready chain)
    (hcall : s.policy.calls id = some call) (hphase : call.phase = .snapshotting)
    (hreading : s.reading id = none) :
    WorldMove p s w { s with
      slot := some slot
      reading := Function.update s.reading id (some (.snapshotHead chain)) } []
  | pinned {w : WorldEvent} {id : ℕ} {chain : Connection} {policy : State caches}
    {o : List Observation}
    (hreading : s.reading id = some (.snapshotHead chain))
    (hstep : p.auth.step s.policy (.snapshot id (.ok ())) = some (policy, o)) :
    WorldMove p s w
      { s with policy, reading := Function.update s.reading id (some (.pinned chain)) }
      (.pinned id chain :: o.map .policy)

section

variable {p : CpsPolicy} {caches : Caches} {s s' : World caches} {o : List Sighting}

theorem feed_eq_some_iff {e : Event} :
    p.feed s e = some (s', o) ↔ ∃ policy k, p.auth.step s.policy e = some (policy, k) ∧
      s' = { s with policy } ∧ o = k.map .policy := by
  rw [CpsPolicy.feed, Option.map_eq_some_iff]
  constructor
  · rintro ⟨⟨policy, k⟩, hstep, heq⟩
    obtain ⟨rfl, rfl⟩ := Prod.mk.inj heq
    exact ⟨policy, k, hstep, rfl, rfl⟩
  · rintro ⟨policy, k, hstep, rfl, rfl⟩
    exact ⟨(policy, k), hstep, rfl⟩

theorem publishesNothing_getD (s : World caches) :
    s.PublishesNothing (some (s.slot.getD .start)) := by
  intro slot chain hslot hready
  obtain rfl := Option.some.inj hslot
  cases hs : s.slot with
  | none =>
    rw [hs] at hready
    exact absurd hready (by simp [Slot.start])
  | some slot₀ =>
    rw [hs] at hready
    exact ⟨slot₀, rfl, hready⟩

theorem publishesNothing_self (s : World caches) : s.PublishesNothing s.slot :=
  fun slot _ hslot hready => ⟨slot, hslot, hready⟩

/-- A supervisor that makes no connection publishes nothing. -/
theorem move_of_supervised {w : WorldEvent} {e : Supervision Connection}
    (hconnected : ∀ chain, e ≠ .connected (.ok chain)) (h : s.supervised e = some s') :
    WorldMove p s w s' [] := by
  obtain ⟨slot, -, hmap⟩ := Option.bind_eq_some_iff.mp h
  obtain ⟨slot', hstep, rfl⟩ := Option.map_eq_some_iff.mp hmap
  refine .slot fun slot'' chain heq hready => ?_
  obtain rfl := Option.some.inj heq
  exact absurd (Slot.connected_of_ready hstep hready) (hconnected chain)

theorem move_of_take {id : ℕ} {inSync : Bool} (h : p.take s id inSync = some (s', o)) :
    WorldMove p s (.take id inSync) s' o := by
  have hslot := publishesNothing_getD s
  unfold CpsPolicy.take at h
  obtain ⟨call, hcall, h⟩ := Option.bind_eq_some_iff.mp h
  split at h
  · obtain ⟨policy, k, hstep, rfl, rfl⟩ := feed_eq_some_iff.mp h
    exact .gaveUp hslot (e := .verify id (.error _)) rfl hstep
  · next chain _ hreading hget =>
    split_ifs at h with hgenesis
    · obtain ⟨policy, k, hstep, rfl, rfl⟩ := feed_eq_some_iff.mp h
      exact .gaveUp hslot (e := .verify id (.error _)) rfl hstep
    · obtain ⟨rfl, rfl⟩ := Prod.mk.inj (Option.some.inj h)
      exact .verifyHead hslot (Slot.ready_of_tryGet hget) (not_not.mp hgenesis) hreading
  · obtain ⟨policy, k, hstep, rfl, rfl⟩ := feed_eq_some_iff.mp h
    exact .gaveUp hslot (e := .snapshot id (.error _)) rfl hstep
  · next chain hphase hreading hget =>
    obtain ⟨rfl, rfl⟩ := Prod.mk.inj (Option.some.inj h)
    exact .snapshotHead hslot (Slot.ready_of_tryGet hget) hcall hphase hreading
  · exact absurd h (by simp)

/-- **Every step is one of the moves.**  The policy's own moves are among them as they are, with
the answers that its reader has made. -/
theorem move_of_worldStep {e : WorldEvent} (h : p.step s e = some (s', o)) :
    WorldMove p s e s' o := by
  have hself := publishesNothing_self s
  cases e with
  | prefetch =>
    obtain ⟨rfl, rfl⟩ := Prod.mk.inj (Option.some.inj h)
    exact .slot (publishesNothing_getD s)
  | connected result =>
    cases result with
    | ok genesis =>
      obtain ⟨next, hnext, heq⟩ := Option.map_eq_some_iff.mp h
      obtain ⟨rfl, rfl⟩ := Prod.mk.inj heq
      obtain ⟨slot, -, hmap⟩ := Option.bind_eq_some_iff.mp hnext
      obtain ⟨slot', hstep, rfl⟩ := Option.map_eq_some_iff.mp hmap
      refine .connected fun chain hready => ?_
      have hevent := Slot.connected_of_ready hstep hready
      exact (Except.ok.inj (Supervision.connected.inj hevent)).symm
    | error error =>
      obtain ⟨next, hnext, heq⟩ := Option.map_eq_some_iff.mp h
      obtain ⟨rfl, rfl⟩ := Prod.mk.inj heq
      exact move_of_supervised (by simp) hnext
  | lost | slept =>
    obtain ⟨next, hnext, heq⟩ := Option.map_eq_some_iff.mp h
    obtain ⟨rfl, rfl⟩ := Prod.mk.inj heq
    exact move_of_supervised (by simp) hnext
  | policy e =>
    cases e with
    | verify | snapshot => exact absurd h (by simp [CpsPolicy.step])
    | timeout id =>
      obtain ⟨policy, k, hstep, rfl, rfl⟩ := feed_eq_some_iff.mp h
      exact .gaveUp hself (e := .timeout id) rfl hstep
    | cancel id =>
      obtain ⟨policy, k, hstep, rfl, rfl⟩ := feed_eq_some_iff.mp h
      exact .gaveUp hself (e := .cancel id) rfl hstep
    | tick | call | run | nodeOf | lineage =>
      obtain ⟨policy, k, hstep, rfl, rfl⟩ := feed_eq_some_iff.mp h
      exact .policy rfl hstep
  | take id inSync => exact move_of_take h
  | finalized id result =>
    simp only [CpsPolicy.step] at h
    split at h
    · next chain hreading =>
      obtain ⟨rfl, rfl⟩ := Prod.mk.inj (Option.some.inj h)
      exact .verifyRoot hreading
    · obtain ⟨policy, k, hstep, rfl, rfl⟩ := feed_eq_some_iff.mp h
      exact .gaveUp hself (e := .verify id (.error _)) rfl hstep
    · next chain hreading =>
      obtain ⟨⟨next, k⟩, hnext, heq⟩ := Option.map_eq_some_iff.mp h
      obtain ⟨rfl, rfl⟩ := Prod.mk.inj heq
      obtain ⟨policy, k, hstep, rfl, rfl⟩ := feed_eq_some_iff.mp hnext
      exact .pinned hreading hstep
    · obtain ⟨policy, k, hstep, rfl, rfl⟩ := feed_eq_some_iff.mp h
      exact .gaveUp hself (e := .snapshot id (.error _)) rfl hstep
    · exact absurd h (by simp)
  | rootInfo id result =>
    simp only [CpsPolicy.step] at h
    split at h
    · next chain hreading =>
      obtain ⟨⟨next, k⟩, hnext, heq⟩ := Option.map_eq_some_iff.mp h
      obtain ⟨rfl, rfl⟩ := Prod.mk.inj heq
      obtain ⟨policy, k, hstep, rfl, rfl⟩ := feed_eq_some_iff.mp hnext
      exact .checked hreading hstep
    · obtain ⟨policy, k, hstep, rfl, rfl⟩ := feed_eq_some_iff.mp h
      exact .gaveUp hself (e := .verify id (.error _)) rfl hstep
    · obtain ⟨policy, k, hstep, rfl, rfl⟩ := feed_eq_some_iff.mp h
      exact .gaveUp hself (e := .verify id (.error _)) rfl hstep
    · exact absurd h (by simp)

end

end Auth
end Robins
