import Robins.Auth.Policy
import Robins.Lib.BoundedCache
import Robins.Lib.EventMachine
import Mathlib.Logic.Function.Basic

/-!
# The `cps` policy

A sensor is allowed when it is bound to a node below the configured root.  The policy first looks
into a cache of decisions; `authorize` then asks the chain, within a timeout, and remembers what
it found: an allow without limit, a deny for some time.  Before the first question the reader of
the chain is verified, once.

## What interleaves

Calls run concurrently, and the source is asynchronous: a call gives way to others wherever it
waits.  The cache is locked, and never across a suspension, so what interleaves are the reading of
the clock, the visit of the cache, each question to the chain, and the two steps of remembering.
`Phase` has a constructor for each place where a call may be between two such steps, and carries
what the call knows there.  A call may also be dropped while its lookup is suspended.

The answers of the reader are events: they may be anything, at any moment, and no two questions
need be answered alike.  What follows from answers that agree with one tree is the subject of
`Auth.Subtree`.

## The moves

`Move` lists the steps, each with its conditions, and `move_of_step` says that there are no
others.  The invariants of the policy (`Auth.CpsCache`) and of the reader below it
(`Auth.WrongChain`) are proved move by move.
-/

namespace Robins
namespace Auth

open Protocol

/-! ## The walk from a sensor to the root -/

/-- Most ancestors followed before a lookup is declared inconsistent. -/
def maxAncestorDepth : ℕ := 256

/-- Position of a CPS node in the tree. -/
inductive Lineage where
  | missing
  | root
  | parent (node : NodeId)
  deriving DecidableEq, Repr

/-- What an authorization by a CPS subtree is made of, apart from the reader. -/
structure CpsAuth where
  root : NodeId
  negativeTtl : Duration
  /-- Bounds allow and deny entries together. -/
  capacity : ℕ
  capacity_pos : 0 < capacity

/-- Where the walk is: over, or waiting for the lineage of a node, with the nodes
visited and how many more may be asked about. -/
inductive Walk where
  | done (decision : Decision)
  | ask (current : NodeId) (visited : List NodeId) (left : ℕ)
  deriving DecidableEq

/-- The node of the sensor is known. -/
def CpsAuth.bound (auth : CpsAuth) : Option NodeId → Walk
  | none => .done (.ok false)
  | some node =>
    if node = auth.root then .done (.ok false) else .ask node [node] (maxAncestorDepth - 1)

/-- The lineage of the current node is known. -/
def CpsAuth.climb (auth : CpsAuth) (current : NodeId) (visited : List NodeId) (left : ℕ) :
    Lineage → Walk
  | .missing =>
    .done (.error (.inconsistent ("node " ++ toString current ++ " is missing from the tree")))
  | .root => .done (.ok false)
  | .parent parent =>
    if parent = auth.root then .done (.ok true)
    else if parent ∈ visited then
      .done (.error (.inconsistent ("ancestor cycle at node " ++ toString parent)))
    else
      match left with
      | 0 => .done (.error (.inconsistent
          ("more than " ++ toString maxAncestorDepth ++ " ancestors")))
      | left + 1 => .ask parent (parent :: visited) left

/-! ## State -/

/-- A cached decision and when it stops being valid. -/
structure Entry where
  allowed : Bool
  /-- `none` keeps the entry until eviction. -/
  expires : Option Instant
  deriving DecidableEq, Repr

def Entry.expired (entry : Entry) (now : Instant) : Bool := entry.expires.any (· ≤ now)

/-- A bounded cache of decisions. -/
abbrev Caches := CacheOps SensorId Entry

/-- The cell that is set once the reader is verified. -/
inductive Cell where
  | empty
  /-- A call is verifying, the others wait. -/
  | running (call : ℕ)
  | set
  deriving DecidableEq, Repr

/-- Which function is called. -/
inductive Method where
  | tryAuthorize
  | authorize
  deriving DecidableEq, Repr

/-- Where a call is. -/
inductive Phase where
  /-- Before the clock is read. -/
  | check
  /-- The clock has been read; before the cache is locked. -/
  | probe (now : Instant)
  /-- At the cell. -/
  | waiting
  | verifying
  | snapshotting
  | binding
  | climbing (current : NodeId) (visited : List NodeId) (left : ℕ)
  /-- The lookup is over. -/
  | decided (allowed : Bool)
  /-- The entry is made, at some time; before the cache is locked. -/
  | storing (entry : Entry) (since : Instant)
  deriving DecidableEq

/-- The lookup is suspended: it may time out, or be dropped. -/
def Phase.isLookup : Phase → Bool
  | .waiting | .verifying | .snapshotting | .binding | .climbing _ _ _ => true
  | _ => false

/-- A snapshot of the chain is being asked. -/
def Phase.isAsking : Phase → Bool
  | .binding | .climbing _ _ _ => true
  | _ => false

structure Call where
  method : Method
  sensor : SensorId
  phase : Phase
  deriving DecidableEq

/-- The policy and its calls. -/
structure State (caches : Caches) where
  cache : caches.Cache
  verified : Cell
  /-- What the clock shows. -/
  now : Instant
  next : ℕ
  calls : ℕ → Option Call

/-- A policy that was just made. -/
def CpsAuth.start (auth : CpsAuth) (caches : Caches) : State caches :=
  ⟨caches.new auth.capacity, .empty, 0, 0, fun _ => none⟩

/-! ## Events and observations -/

/-- What the world contributes to a step. -/
inductive Event where
  | tick (now : Instant)
  | call (method : Method) (sensor : SensorId)
  /-- A call that waits for nobody goes on. -/
  | run (call : ℕ)
  | verify (call : ℕ) (result : Except AuthError Unit)
  | snapshot (call : ℕ) (result : Except AuthError Unit)
  | nodeOf (call : ℕ) (result : Except AuthError (Option NodeId))
  | lineage (call : ℕ) (result : Except AuthError Lineage)
  | timeout (call : ℕ)
  /-- Whoever waits for the answer gives up. -/
  | cancel (call : ℕ)

/-- The call an event is about. -/
def Event.target : Event → Option ℕ
  | .tick _ | .call _ _ => none
  | .run id | .verify id _ | .snapshot id _ | .nodeOf id _ | .lineage id _ | .timeout id
  | .cancel id => some id

/-- The answer to a question a call asks its snapshot. -/
def Event.Answers (id : ℕ) : Event → Prop
  | .nodeOf id' _ | .lineage id' _ => id' = id
  | _ => False

theorem Event.Answers.target {id : ℕ} {e : Event} (h : e.Answers id) : e.target = some id := by
  cases e with
  | nodeOf | lineage => exact congrArg some h
  | _ => exact h.elim

inductive Observation where
  /-- `reader.verify` succeeded. -/
  | verified (call : ℕ)
  | completed (call : ℕ) (sensor : SensorId) (allowed : Bool)
  /-- A decision is remembered, with an entry made at some time. -/
  | stored (call : ℕ) (sensor : SensorId) (allowed : Bool) (since : Instant)
  /-- The answer comes from the cache, as of some time. -/
  | hit (call : ℕ) (sensor : SensorId) (allowed : Bool) (now : Instant)
  /-- `try_authorize` has no answer. -/
  | missed (call : ℕ) (sensor : SensorId)
  /-- `authorize` answers after a lookup. -/
  | answered (call : ℕ) (sensor : SensorId) (decision : Decision)
  deriving DecidableEq

/-! ## Steps -/

section

variable {caches : Caches}

/-- A call is in another phase. -/
def State.goto (s : State caches) (id : ℕ) (call : Call) (phase : Phase) : State caches :=
  { s with calls := Function.update s.calls id (some { call with phase }) }

/-- A call is over.  If it was verifying, another one may. -/
def State.finish (s : State caches) (id : ℕ) : State caches :=
  { s with
    verified := if s.verified = .running id then .empty else s.verified
    calls := Function.update s.calls id none }

/-- A verified reader stays verified when a call is over. -/
@[simp] theorem State.finish_verified_eq_set_iff {s : State caches} {id : ℕ} :
    (s.finish id).verified = .set ↔ s.verified = .set := by
  show (if s.verified = .running id then Cell.empty else s.verified) = .set ↔ s.verified = .set
  by_cases h : s.verified = .running id
  · simp [h]
  · rw [if_neg h]

/-- A live cached decision, dropping it if it has expired. -/
def State.cached (s : State caches) (sensor : SensorId) (now : Instant) :
    Option Bool × caches.Cache :=
  match caches.get s.cache sensor with
  | (none, cache) => (none, cache)
  | (some entry, cache) =>
    if entry.expired now then (none, caches.pop cache sensor) else (some entry.allowed, cache)

/-- What is remembered of a decision made now. -/
def CpsAuth.entry (auth : CpsAuth) (allowed : Bool) (now : Instant) : Entry :=
  ⟨allowed, if allowed then none else some (now + auth.negativeTtl)⟩

/-- The lookup of a call returns. -/
def State.returns (s : State caches) (id : ℕ) (call : Call) : Decision →
    State caches × List Observation
  | .ok allowed => (s.goto id call (.decided allowed), [.completed id call.sensor allowed])
  | .error error => (s.finish id, [.answered id call.sensor (.error error)])

/-- The walk of a call goes on. -/
def State.walk (s : State caches) (id : ℕ) (call : Call) : Walk → State caches × List Observation
  | .done decision => s.returns id call decision
  | .ask current visited left => (s.goto id call (.climbing current visited left), [])

/-- A call that waits for nobody goes on. -/
def CpsAuth.run (auth : CpsAuth) (s : State caches) (id : ℕ) (call : Call) :
    Option (State caches × List Observation) :=
  match call.phase with
  | .check => some (s.goto id call (.probe s.now), [])
  | .probe now =>
    match s.cached call.sensor now, call.method with
    | (some allowed, cache), _ =>
      some ({ s.finish id with cache }, [.hit id call.sensor allowed now])
    | (none, cache), .tryAuthorize =>
      some ({ s.finish id with cache }, [.missed id call.sensor])
    | (none, cache), .authorize => some ({ s.goto id call .waiting with cache }, [])
  | .waiting =>
    match s.verified with
    | .set => some (s.goto id call .snapshotting, [])
    | .empty => some ({ s.goto id call .verifying with verified := .running id }, [])
    | .running _ => none
  | .decided allowed =>
    some (s.goto id call (.storing (auth.entry allowed s.now) s.now), [])
  | .storing entry since =>
    some ({ s.finish id with cache := caches.put s.cache call.sensor entry },
      [.stored id call.sensor entry.allowed since, .answered id call.sensor (.ok entry.allowed)])
  | .verifying | .snapshotting | .binding | .climbing _ _ _ => none

def CpsAuth.step (auth : CpsAuth) (s : State caches) (e : Event) :
    Option (State caches × List Observation) :=
  match e with
  | .tick now => if s.now ≤ now then some ({ s with now }, []) else none
  | .call method sensor =>
    some ({ s with
      next := s.next + 1
      calls := Function.update s.calls s.next (some ⟨method, sensor, .check⟩) }, [])
  | .run id => (s.calls id).bind (auth.run s id)
  | .verify id result =>
    (s.calls id).bind fun call =>
      match call.phase, result with
      | .verifying, .ok () =>
        some ({ s.goto id call .snapshotting with verified := .set }, [.verified id])
      | .verifying, .error error => some (s.returns id call (.error error))
      | _, _ => none
  | .snapshot id result =>
    (s.calls id).bind fun call =>
      match call.phase, result with
      | .snapshotting, .ok () => some (s.goto id call .binding, [])
      | .snapshotting, .error error => some (s.returns id call (.error error))
      | _, _ => none
  | .nodeOf id result =>
    (s.calls id).bind fun call =>
      match call.phase, result with
      | .binding, .ok node => some (s.walk id call (auth.bound node))
      | .binding, .error error => some (s.returns id call (.error error))
      | _, _ => none
  | .lineage id result =>
    (s.calls id).bind fun call =>
      match call.phase, result with
      | .climbing current visited left, .ok lineage =>
        some (s.walk id call (auth.climb current visited left lineage))
      | .climbing _ _ _, .error error => some (s.returns id call (.error error))
      | _, _ => none
  | .timeout id =>
    (s.calls id).bind fun call =>
      if call.phase.isLookup then some (s.returns id call (.error .timeout)) else none
  | .cancel id =>
    (s.calls id).bind fun call =>
      if call.phase.isLookup then some (s.finish id, []) else none

end

def cpsMachine (auth : CpsAuth) (caches : Caches) :
    EventMachine (State caches) Event Observation := ⟨auth.step⟩

/-! ## What a step can do -/

/-- The steps of the policy, each with the conditions under which it is taken. -/
inductive Move (auth : CpsAuth) {caches : Caches} (s : State caches) :
    Event → State caches → List Observation → Prop
  | tick {now : Instant} (hle : s.now ≤ now) : Move auth s (.tick now) { s with now } []
  | call {method : Method} {sensor : SensorId} :
    Move auth s (.call method sensor) { s with
      next := s.next + 1
      calls := Function.update s.calls s.next (some ⟨method, sensor, .check⟩) } []
  | look {id : ℕ} {call : Call} (hcall : s.calls id = some call) (hphase : call.phase = .check) :
    Move auth s (.run id) (s.goto id call (.probe s.now)) []
  /-- A live decision is in the cache. -/
  | hit {id : ℕ} {call : Call} {now : Instant} {allowed : Bool} {cache : caches.Cache}
    (hcall : s.calls id = some call) (hphase : call.phase = .probe now)
    (hcached : s.cached call.sensor now = (some allowed, cache)) :
    Move auth s (.run id) { s.finish id with cache } [.hit id call.sensor allowed now]
  | miss {id : ℕ} {call : Call} {now : Instant} {cache : caches.Cache}
    (hcall : s.calls id = some call) (hphase : call.phase = .probe now)
    (hcached : s.cached call.sensor now = (none, cache)) :
    Move auth s (.run id) { s.finish id with cache } [.missed id call.sensor]
  /-- A lookup begins. -/
  | enter {id : ℕ} {call : Call} {now : Instant} {cache : caches.Cache}
    (hcall : s.calls id = some call) (hphase : call.phase = .probe now)
    (hcached : s.cached call.sensor now = (none, cache)) :
    Move auth s (.run id) { s.goto id call .waiting with cache } []
  /-- The reader was verified. -/
  | proceed {id : ℕ} {call : Call} (hcall : s.calls id = some call)
    (hphase : call.phase = .waiting) (hset : s.verified = .set) :
    Move auth s (.run id) (s.goto id call .snapshotting) []
  /-- The reader is to be verified. -/
  | begin {id : ℕ} {call : Call} (hcall : s.calls id = some call)
    (hphase : call.phase = .waiting) (hempty : s.verified = .empty) :
    Move auth s (.run id) { s.goto id call .verifying with verified := .running id } []
  | verified {id : ℕ} {call : Call} (hcall : s.calls id = some call)
    (hphase : call.phase = .verifying) :
    Move auth s (.verify id (.ok ())) { s.goto id call .snapshotting with verified := .set }
      [.verified id]
  | pinned {id : ℕ} {call : Call} (hcall : s.calls id = some call)
    (hphase : call.phase = .snapshotting) :
    Move auth s (.snapshot id (.ok ())) (s.goto id call .binding) []
  /-- The chain is asked for the lineage of another node. -/
  | ask {e : Event} {id : ℕ} {call : Call} {current : NodeId} {visited : List NodeId} {left : ℕ}
    (hanswers : e.Answers id) (hcall : s.calls id = some call)
    (hphase : call.phase.isAsking = true) :
    Move auth s e (s.goto id call (.climbing current visited left)) []
  /-- The lookup is over. -/
  | completed {e : Event} {id : ℕ} {call : Call} {allowed : Bool} (hanswers : e.Answers id)
    (hcall : s.calls id = some call) (hphase : call.phase.isAsking = true) :
    Move auth s e (s.goto id call (.decided allowed)) [.completed id call.sensor allowed]
  /-- The lookup fails, or its time is over. -/
  | fail {e : Event} {id : ℕ} {call : Call} {error : AuthError} (htarget : e.target = some id)
    (hcall : s.calls id = some call) (hphase : call.phase.isLookup = true) :
    Move auth s e (s.finish id) [.answered id call.sensor (.error error)]
  | cancel {id : ℕ} {call : Call} (hcall : s.calls id = some call)
    (hphase : call.phase.isLookup = true) : Move auth s (.cancel id) (s.finish id) []
  | entry {id : ℕ} {call : Call} {allowed : Bool} (hcall : s.calls id = some call)
    (hphase : call.phase = .decided allowed) :
    Move auth s (.run id) (s.goto id call (.storing (auth.entry allowed s.now) s.now)) []
  /-- The decision is remembered, and is the answer. -/
  | store {id : ℕ} {call : Call} {entry : Entry} {since : Instant}
    (hcall : s.calls id = some call) (hphase : call.phase = .storing entry since) :
    Move auth s (.run id) { s.finish id with cache := caches.put s.cache call.sensor entry }
      [.stored id call.sensor entry.allowed since, .answered id call.sensor (.ok entry.allowed)]

section

variable {auth : CpsAuth} {caches : Caches} {s s' : State caches} {o : List Observation}

variable (auth) in
theorem move_of_walk {e : Event} {id : ℕ} {call : Call} (hanswers : e.Answers id)
    (hcall : s.calls id = some call) (hphase : call.phase.isAsking = true) (walk : Walk) :
    Move auth s e (s.walk id call walk).1 (s.walk id call walk).2 := by
  match walk with
  | .ask current visited left => exact .ask hanswers hcall hphase
  | .done (.ok allowed) => exact .completed hanswers hcall hphase
  | .done (.error error) =>
    refine .fail hanswers.target hcall ?_
    cases hp : call.phase <;> simp_all [Phase.isAsking, Phase.isLookup]

theorem move_of_run {id : ℕ} {call : Call} (hcall : s.calls id = some call)
    (hrun : auth.run s id call = some (s', o)) : Move auth s (.run id) s' o := by
  unfold CpsAuth.run at hrun
  split at hrun
  · next hphase =>
    obtain ⟨rfl, rfl⟩ := Prod.mk.inj (Option.some.inj hrun)
    exact .look hcall hphase
  · next now hphase =>
    split at hrun
    · next allowed cache _ hcached =>
      obtain ⟨rfl, rfl⟩ := Prod.mk.inj (Option.some.inj hrun)
      exact .hit hcall hphase hcached
    · next cache hcached _ =>
      obtain ⟨rfl, rfl⟩ := Prod.mk.inj (Option.some.inj hrun)
      exact .miss hcall hphase hcached
    · next cache hcached _ =>
      obtain ⟨rfl, rfl⟩ := Prod.mk.inj (Option.some.inj hrun)
      exact .enter hcall hphase hcached
  · next hphase =>
    split at hrun
    · next hset =>
      obtain ⟨rfl, rfl⟩ := Prod.mk.inj (Option.some.inj hrun)
      exact .proceed hcall hphase hset
    · next hempty =>
      obtain ⟨rfl, rfl⟩ := Prod.mk.inj (Option.some.inj hrun)
      exact .begin hcall hphase hempty
    · exact absurd hrun (by simp)
  · next allowed hphase =>
    obtain ⟨rfl, rfl⟩ := Prod.mk.inj (Option.some.inj hrun)
    exact .entry hcall hphase
  · next entry since hphase =>
    obtain ⟨rfl, rfl⟩ := Prod.mk.inj (Option.some.inj hrun)
    exact .store hcall hphase
  all_goals exact absurd hrun (by simp)

/-- **Every step is one of the moves.**  With each comes what the call knew before it and where
the call is after it; the other calls are where they were. -/
theorem move_of_step {e : Event} (hstep : auth.step s e = some (s', o)) : Move auth s e s' o := by
  cases e with
  | tick now =>
    simp only [CpsAuth.step] at hstep
    split_ifs at hstep with hle
    obtain ⟨rfl, rfl⟩ := Prod.mk.inj (Option.some.inj hstep)
    exact .tick hle
  | call method sensor =>
    obtain ⟨rfl, rfl⟩ := Prod.mk.inj (Option.some.inj hstep)
    exact .call
  | run id =>
    obtain ⟨call, hcall, hrun⟩ := Option.bind_eq_some_iff.mp hstep
    exact move_of_run hcall hrun
  | verify id result =>
    obtain ⟨call, hcall, hrun⟩ := Option.bind_eq_some_iff.mp hstep
    split at hrun
    · next hphase =>
      obtain ⟨rfl, rfl⟩ := Prod.mk.inj (Option.some.inj hrun)
      exact .verified hcall hphase
    · next error hphase =>
      obtain ⟨rfl, rfl⟩ := Prod.mk.inj (Option.some.inj hrun)
      exact .fail rfl hcall (by rw [hphase]; rfl)
    · exact absurd hrun (by simp)
  | snapshot id result =>
    obtain ⟨call, hcall, hrun⟩ := Option.bind_eq_some_iff.mp hstep
    split at hrun
    · next hphase =>
      obtain ⟨rfl, rfl⟩ := Prod.mk.inj (Option.some.inj hrun)
      exact .pinned hcall hphase
    · next error hphase =>
      obtain ⟨rfl, rfl⟩ := Prod.mk.inj (Option.some.inj hrun)
      exact .fail rfl hcall (by rw [hphase]; rfl)
    · exact absurd hrun (by simp)
  | nodeOf id result =>
    obtain ⟨call, hcall, hrun⟩ := Option.bind_eq_some_iff.mp hstep
    split at hrun
    · next node hphase =>
      have hmove := move_of_walk auth (e := .nodeOf id (.ok node)) rfl hcall
        (by rw [hphase]; rfl) (auth.bound node)
      rwa [Option.some.inj hrun] at hmove
    · next error hphase =>
      obtain ⟨rfl, rfl⟩ := Prod.mk.inj (Option.some.inj hrun)
      exact .fail rfl hcall (by rw [hphase]; rfl)
    · exact absurd hrun (by simp)
  | lineage id result =>
    obtain ⟨call, hcall, hrun⟩ := Option.bind_eq_some_iff.mp hstep
    split at hrun
    · next current visited left lineage hphase =>
      have hmove := move_of_walk auth (e := .lineage id (.ok lineage)) rfl hcall
        (by rw [hphase]; rfl) (auth.climb current visited left lineage)
      rwa [Option.some.inj hrun] at hmove
    · next error hphase =>
      obtain ⟨rfl, rfl⟩ := Prod.mk.inj (Option.some.inj hrun)
      exact .fail rfl hcall (by rw [hphase]; rfl)
    · exact absurd hrun (by simp)
  | timeout id =>
    obtain ⟨call, hcall, hrun⟩ := Option.bind_eq_some_iff.mp hstep
    split_ifs at hrun with hphase
    obtain ⟨rfl, rfl⟩ := Prod.mk.inj (Option.some.inj hrun)
    exact .fail rfl hcall hphase
  | cancel id =>
    obtain ⟨call, hcall, hrun⟩ := Option.bind_eq_some_iff.mp hstep
    split_ifs at hrun with hphase
    obtain ⟨rfl, rfl⟩ := Prod.mk.inj (Option.some.inj hrun)
    exact .cancel hcall hphase

end

end Auth
end Robins
