import Robins.Auth.CpsReader
import Mathlib.Data.List.Nodup

/-!
# Which chain a decision comes from

The reader is verified once.  A lookup takes the shared connection anew for its snapshot, so after
the supervisor has replaced the connection, decisions come from one that was not verified.  The
endpoint is configured and trusted to stay on its chain; if it does not, nothing notices
(`not_neverWrong_replacedConnection`).

## What holds of every run

`allow_verifiedBefore` says what the policy does guarantee.  An allow comes from a snapshot that
was taken after a connection with the expected genesis hash was verified, at a moment when the
chain answered that the root is on that connection; and the snapshot is one of that very
connection, unless the supervisor has made a later one.

## The account

The policy inside the larger machine runs as it does alone (`policy_exec_of_exec`), so that an
allow is justified by a lookup which returned it is known from `Auth.CpsCache`.  What is added
here is where the snapshot of that lookup came from.  `Watched` keeps, for the state of the reader
of each call, which connection it has in hand and which one was verified before; connections are
told apart by their numbers, which go up.  The moment of the verification itself is found by
going back in the run: a sighting that a connection was checked is made in one kind of step only
(`WorldMove.of_checked`), and in that step the chain has just answered.
-/

namespace Robins
namespace Auth

open Protocol Chain

/-! ## The policy alone -/

/-- What the policy shows. -/
def policyHistory (h : List Sighting) : List Observation :=
  h.filterMap fun | .policy o => some o | _ => none

theorem policyHistory_append (h k : List Sighting) :
    policyHistory (h ++ k) = policyHistory h ++ policyHistory k := List.filterMap_append

@[simp] theorem policyHistory_map_policy (o : List Observation) :
    policyHistory (o.map .policy) = o := by
  rw [policyHistory, List.filterMap_map]
  exact List.filterMap_some

theorem mem_policyHistory {h : List Sighting} {o : Observation} :
    o ∈ policyHistory h ↔ .policy o ∈ h := by
  refine EventMachine.mem_filterMap_iff fun b => ?_
  cases b <;> simp

section

variable {p : CpsPolicy} {caches : Caches}

/-- A step of the larger machine is a step of the policy, or none. -/
theorem WorldMove.policy_step {s s' : World caches} {e : WorldEvent} {o : List Sighting}
    (hmove : WorldMove p s e s' o) :
    (s'.policy = s.policy ∧ policyHistory o = []) ∨
      ∃ e, p.auth.step s.policy e = some (s'.policy, policyHistory o) := by
  cases hmove with
  | slot | connected | verifyHead | verifyRoot | snapshotHead => exact .inl ⟨rfl, rfl⟩
  | policy _ hstep | gaveUp _ _ hstep =>
    exact .inr ⟨_, hstep.trans (by rw [policyHistory_map_policy])⟩
  | checked _ hstep | pinned _ hstep =>
    refine .inr ⟨_, hstep.trans ?_⟩
    rw [policyHistory, List.filterMap_cons_none rfl, ← policyHistory, policyHistory_map_policy]

/-- **The policy runs as it does alone.**  What it was fed are events of its own machine, so all
that is known of its runs is known of this part of the history. -/
theorem policy_exec_of_exec {es : List WorldEvent} {s : World caches} {h : List Sighting}
    (hrun : (policyMachine p caches).exec (p.start caches) es = some (s, h)) :
    ∃ fs, (cpsMachine p.auth caches).exec (p.auth.start caches) fs =
      some (s.policy, policyHistory h) := by
  refine EventMachine.exec_induction (P := fun _ h s => ∃ fs,
    (cpsMachine p.auth caches).exec (p.auth.start caches) fs =
      some (s.policy, policyHistory h)) ?_ ?_ hrun
  · exact ⟨[], rfl⟩
  · rintro _ h s e s' o - ⟨fs, hfs⟩ hstep
    rw [policyHistory_append]
    rcases (move_of_worldStep hstep).policy_step with ⟨hsame, hnone⟩ | ⟨e', hstep'⟩
    · exact ⟨fs, by rw [hsame, hnone, List.append_nil, hfs]⟩
    · exact ⟨fs ++ [e'], EventMachine.exec_snoc_eq_some_iff.mpr ⟨_, _, _, hfs, hstep', rfl⟩⟩

end

/-! ## Questions to a snapshot -/

section

variable {auth : CpsAuth} {caches : Caches} {s s' : State caches} {o : List Observation} {e : Event}

theorem Event.GivesUp.target {id : ℕ} (h : e.GivesUp id) : e.target = some id := by
  cases e with
  | verify id' result | snapshot id' result =>
    cases result with
    | ok => exact h.elim
    | error => exact congrArg some h
  | timeout | cancel => exact congrArg some h
  | tick | call | run | nodeOf | lineage => exact h.elim

/-- An event about one call leaves the others as they are. -/
theorem asking_of_update {id₀ : ℕ} {x : Option Call} (htarget : e.target = some id₀)
    (hx : ∀ call, x = some call → call.phase.isAsking = true →
      ¬ e.GivesUp id₀ ∧ ∃ call₀, s.calls id₀ = some call₀ ∧ call₀.phase.isAsking = true)
    {id : ℕ} {call : Call} (hcall : Function.update s.calls id₀ x id = some call)
    (hasking : call.phase.isAsking = true) :
    ¬ e.GivesUp id ∧ ∃ call₀, s.calls id = some call₀ ∧ call₀.phase.isAsking = true := by
  by_cases hid : id = id₀
  · subst hid
    rw [Function.update_self] at hcall
    exact hx call hcall hasking
  · rw [Function.update_of_ne hid] at hcall
    refine ⟨fun hgives => hid ?_, call, hcall, hasking⟩
    rw [hgives.target] at htarget
    exact Option.some.inj htarget

/-- A call that asks a snapshot did so before, or was just given it. -/
theorem asking_of_step (hmove : Move auth s e s' o) {id : ℕ} {call : Call}
    (hcall : s'.calls id = some call) (hasking : call.phase.isAsking = true) :
    e = .snapshot id (.ok ()) ∨
      (¬ e.GivesUp id ∧ ∃ call₀, s.calls id = some call₀ ∧ call₀.phase.isAsking = true) := by
  cases hmove with
  | tick => exact .inr ⟨fun h => h, call, hcall, hasking⟩
  | call =>
    refine .inr ⟨fun h => h, ?_⟩
    dsimp only at hcall
    by_cases hid : id = s.next
    · subst hid
      rw [Function.update_self] at hcall
      obtain rfl := Option.some.inj hcall
      exact absurd hasking (by simp [Phase.isAsking])
    · rw [Function.update_of_ne hid] at hcall
      exact ⟨call, hcall, hasking⟩
  | look | enter | proceed | begin | verified | entry =>
    refine .inr (asking_of_update rfl (fun call' heq hasking' => ?_) hcall hasking)
    obtain rfl := Option.some.inj heq
    exact absurd hasking' (by simp [Phase.isAsking])
  | completed hanswers =>
    refine .inr (asking_of_update hanswers.target (fun call' heq hasking' => ?_) hcall hasking)
    obtain rfl := Option.some.inj heq
    exact absurd hasking' (by simp [Phase.isAsking])
  | hit | miss | cancel | store =>
    exact .inr (asking_of_update rfl (fun _ heq => absurd heq (by simp)) hcall hasking)
  | fail htarget =>
    exact .inr (asking_of_update htarget (fun _ heq => absurd heq (by simp)) hcall hasking)
  | @pinned id₀ call₀ hcall₀ =>
    by_cases hid : id = id₀
    · exact .inl (by rw [hid])
    · refine .inr ⟨fun h => h, call, ?_, hasking⟩
      rw [← hcall]
      exact (Function.update_of_ne hid _ _).symm
  | ask hanswers hcall₀ hphase =>
    refine .inr (asking_of_update hanswers.target (fun _ _ _ => ⟨fun h => ?_, _, hcall₀, hphase⟩)
      hcall hasking)
    cases e with
    | nodeOf | lineage => exact h
    | _ => exact hanswers.elim

theorem verified_of_step (hmove : Move auth s e s' o) {id : ℕ} (hmem : .verified id ∈ o) :
    e = .verify id (.ok ()) := by
  cases hmove with
  | verified =>
    obtain rfl := Observation.verified.inj (List.mem_singleton.mp hmem)
    rfl
  | _ => exact absurd hmem (by simp)

/-- A lookup that returns asked its snapshot last. -/
theorem completed_of_step (hmove : Move auth s e s' o) {id : ℕ} {sensor : SensorId}
    {allowed : Bool} (hmem : .completed id sensor allowed ∈ o) :
    ∃ call, s.calls id = some call ∧ call.phase.isAsking = true := by
  cases hmove with
  | completed _ hcall hphase =>
    obtain ⟨rfl, -, -⟩ := Observation.completed.inj (List.mem_singleton.mp hmem)
    exact ⟨_, hcall, hphase⟩
  | _ => exact absurd hmem (by simp)

end

/-! ## Connections -/

def connections (h : List Sighting) : List Connection :=
  h.filterMap fun | .connected chain => some chain | _ => none

theorem connections_append (h k : List Sighting) :
    connections (h ++ k) = connections h ++ connections k := List.filterMap_append

theorem mem_connections {h : List Sighting} {chain : Connection} :
    chain ∈ connections h ↔ .connected chain ∈ h := by
  refine EventMachine.mem_filterMap_iff fun b => ?_
  cases b <;> simp

@[simp] theorem connections_map_policy (o : List Observation) :
    connections (o.map .policy) = [] := by
  rw [connections, List.filterMap_map]
  exact List.filterMap_eq_nil_iff.mpr fun _ _ => rfl

/-- A connection that was verified, and none after the given one. -/
def FollowsCheck (h : List Sighting) (chain : Connection) : Prop :=
  ∃ id verified, .checked id verified ∈ h ∧ verified.number ≤ chain.number

/-- What must have happened before a sighting. -/
def Origin (p : CpsPolicy) (h : List Sighting) : Sighting → Prop
  | .checked _ chain => .connected chain ∈ h ∧ chain.genesis = p.expectedGenesis
  | .pinned _ chain => .connected chain ∈ h ∧ FollowsCheck h chain
  | .policy (.verified id) => ∃ chain, .checked id chain ∈ h
  | .policy (.completed id _ _) => ∃ chain, .pinned id chain ∈ h
  | _ => True

/-- What must have happened for the reader to be where it is. -/
def Reading.Accounted (p : CpsPolicy) (h : List Sighting) (id : ℕ) : Reading → Prop
  | .verifyHead chain | .verifyRoot chain =>
    .connected chain ∈ h ∧ chain.genesis = p.expectedGenesis
  | .snapshotHead chain => .connected chain ∈ h ∧ FollowsCheck h chain
  | .pinned chain => .pinned id chain ∈ h

/-- The account of the connections. -/
structure Watched (p : CpsPolicy) {caches : Caches} (h : List Sighting) (s : World caches) :
    Prop where
  numbers : (connections h).map Connection.number = List.range s.connections
  /-- The published connection is the last one made. -/
  ready : ∀ slot chain, s.slot = some slot → slot.state = .ready chain →
    .connected chain ∈ h ∧ chain.number + 1 = s.connections
  reading : ∀ id reading, s.reading id = some reading → reading.Accounted p h id
  /-- Whoever asks a snapshot has one. -/
  asking : ∀ id call, s.policy.calls id = some call → call.phase.isAsking = true →
    ∃ chain, s.reading id = some (.pinned chain)
  origin : EventMachine.Justified (Origin p) h

section

variable {p : CpsPolicy} {h o : List Sighting}

theorem FollowsCheck.append {chain : Connection} (hf : FollowsCheck h chain) :
    FollowsCheck (h ++ o) chain := by
  obtain ⟨id, verified, hchecked, hle⟩ := hf
  exact ⟨id, verified, List.mem_append_left _ hchecked, hle⟩

theorem Reading.Accounted.append {id : ℕ} {reading : Reading} (ha : reading.Accounted p h id) :
    reading.Accounted p (h ++ o) id := by
  cases reading with
  | verifyHead | verifyRoot => exact ⟨List.mem_append_left _ ha.1, ha.2⟩
  | snapshotHead => exact ⟨List.mem_append_left _ ha.1, ha.2.append⟩
  | pinned => exact List.mem_append_left _ ha

/-- What the policy shows in a step has its origin. -/
theorem origin_map_policy {k : List Observation} (hj : EventMachine.Justified (Origin p) h)
    (hk : ∀ ob ∈ k, Origin p h (.policy ob)) :
    EventMachine.Justified (Origin p) (h ++ k.map .policy) := by
  refine EventMachine.justified_append.mpr ⟨hj, fun o₁ a o₂ heq => ?_⟩
  have ha : a ∈ k.map Sighting.policy := by
    rw [heq]
    exact List.mem_append_right _ List.mem_cons_self
  obtain ⟨ob, hob, rfl⟩ := List.mem_map.mp ha
  have horigin := hk ob hob
  cases ob with
  | verified id =>
    obtain ⟨chain, hchain⟩ := horigin
    exact ⟨chain, List.mem_append_left _ hchain⟩
  | completed id sensor allowed =>
    obtain ⟨chain, hchain⟩ := horigin
    exact ⟨chain, List.mem_append_left _ hchain⟩
  | _ => trivial

end

namespace Watched

variable {p : CpsPolicy} {caches : Caches} {s s' : World caches} {h o : List Sighting}

theorem start : Watched p [] (p.start caches) where
  numbers := rfl
  ready _ _ hslot := absurd hslot (by simp [CpsPolicy.start])
  reading _ _ hreading := absurd hreading (by simp [CpsPolicy.start])
  asking _ _ hcall := absurd hcall (by simp [CpsPolicy.start, CpsAuth.start])
  origin := EventMachine.justified_nil _

/-- Connections are told apart by their numbers. -/
theorem eq_of_number_eq (w : Watched p h s) {c d : Connection} (hc : .connected c ∈ h)
    (hd : .connected d ∈ h) (heq : c.number = d.number) : c = d := by
  have hnodup : ((connections h).map Connection.number).Nodup := by
    rw [w.numbers]
    exact List.nodup_range
  exact List.inj_on_of_nodup_map hnodup (mem_connections.mpr hc) (mem_connections.mpr hd) heq

theorem number_lt (w : Watched p h s) {c : Connection} (hc : .connected c ∈ h) :
    c.number < s.connections := by
  have hmem : c.number ∈ (connections h).map Connection.number :=
    List.mem_map_of_mem (mem_connections.mpr hc)
  rw [w.numbers] at hmem
  exact List.mem_range.mp hmem

theorem reading_of_update (w : Watched p h s) {id : ℕ} {x : Option Reading}
    (hx : ∀ reading, x = some reading → reading.Accounted p (h ++ o) id) :
    ∀ id' reading, Function.update s.reading id x id' = some reading →
      reading.Accounted p (h ++ o) id' := by
  intro id' reading hreading
  by_cases hid : id' = id
  · subst hid
    rw [Function.update_self] at hreading
    exact hx reading hreading
  · rw [Function.update_of_ne hid] at hreading
    exact (w.reading id' reading hreading).append

/-- A call whose reading changes was not asking a snapshot. -/
theorem asking_of_update (w : Watched p h s) {id : ℕ} {x : Option Reading}
    (hreading : ∀ chain, s.reading id ≠ some (.pinned chain)) {id' : ℕ} {call : Call}
    (hcall : s.policy.calls id' = some call) (hasking : call.phase.isAsking = true) :
    ∃ chain, Function.update s.reading id x id' = some (.pinned chain) := by
  obtain ⟨chain, hpinned⟩ := w.asking id' call hcall hasking
  have hid : id' ≠ id := by
    rintro rfl
    exact hreading chain hpinned
  exact ⟨chain, by rw [Function.update_of_ne hid, hpinned]⟩

theorem ready_of_publishesNothing (w : Watched p h s) {slot : Option (Slot Connection)}
    (hslot : s.PublishesNothing slot) : ∀ slot' chain, slot = some slot' →
      slot'.state = .ready chain → .connected chain ∈ h ∧ chain.number + 1 = s.connections := by
  intro slot' chain heq hready
  obtain ⟨slot₀, hslot₀, hready₀⟩ := hslot slot' chain heq hready
  exact w.ready slot₀ chain hslot₀ hready₀

/-- What the policy shows has its origin, given that of a verification. -/
theorem origin_of_step (w : Watched p h s) {e : Event} {policy : State caches}
    {k : List Observation} (hstep : p.auth.step s.policy e = some (policy, k))
    (hj : EventMachine.Justified (Origin p) (h ++ o))
    (hverify : ∀ id, e = .verify id (.ok ()) → ∃ chain, .checked id chain ∈ h ++ o) :
    EventMachine.Justified (Origin p) (h ++ o ++ k.map .policy) := by
  have hmove := move_of_step hstep
  refine origin_map_policy hj fun ob hob => ?_
  cases ob with
  | verified id => exact hverify id (verified_of_step hmove hob)
  | completed id sensor allowed =>
    obtain ⟨call, hcall, hasking⟩ := completed_of_step hmove hob
    obtain ⟨chain, hpinned⟩ := w.asking id call hcall hasking
    exact ⟨chain, List.mem_append_left _ (w.reading id _ hpinned)⟩
  | _ => trivial

/-- A lookup gets to its snapshot after a verification, which was not of a later
connection than the one that is published now. -/
theorem followsCheck (w : Watched p h s) (a : Accounted p.auth (policyHistory h) s.policy)
    {id : ℕ} {call : Call} {chain : Connection} (hcall : s.policy.calls id = some call)
    (hphase : call.phase = .snapshotting) (hlast : chain.number + 1 = s.connections) :
    FollowsCheck h chain := by
  have hset := (a.call id call hcall).2
  rw [hphase] at hset
  obtain ⟨id', hverified⟩ := a.verified hset
  obtain ⟨h₁, h₂, rfl, verified, hchecked⟩ :=
    w.origin.exists_of_mem (mem_policyHistory.mp hverified)
  have hmem : Sighting.checked id' verified ∈ h₁ ++ .policy (.verified id') :: h₂ :=
    List.mem_append_left _ hchecked
  obtain ⟨h₃, h₄, heq, hconnected, -⟩ := w.origin.exists_of_mem hmem
  have hlt := w.number_lt (c := verified) (by rw [heq]; exact List.mem_append_left _ hconnected)
  exact ⟨id', verified, hmem, by omega⟩

/-- The reader goes on by itself, without a question of the policy. -/
theorem goesOn (w : Watched p h s) {slot : Option (Slot Connection)}
    (hslot : s.PublishesNothing slot) {id : ℕ} {reading : Reading}
    (hreading : ∀ chain, s.reading id ≠ some (.pinned chain)) (hnext : reading.Accounted p h id) :
    Watched p (h ++ [])
      { s with slot, reading := Function.update s.reading id (some reading) } := by
  rw [List.append_nil]
  refine ⟨w.numbers, w.ready_of_publishesNothing hslot, fun id' reading' hreading' => ?_,
    fun id' call hcall hasking => w.asking_of_update hreading hcall hasking, w.origin⟩
  have hread := w.reading_of_update (o := []) (x := some reading) (fun _ heq => by
    rw [← Option.some.inj heq]
    exact hnext.append) id' reading' hreading'
  rwa [List.append_nil] at hread

/-- **One step keeps the account of the connections.** -/
theorem step (w : Watched p h s) (a : Accounted p.auth (policyHistory h) s.policy)
    {e : WorldEvent} (hmove : WorldMove p s e s' o) : Watched p (h ++ o) s' := by
  have hready : ∀ slot chain, s.slot = some slot → slot.state = .ready chain →
      .connected chain ∈ h ++ o ∧ chain.number + 1 = s.connections := fun slot chain hs hr =>
    (w.ready slot chain hs hr).imp_left (List.mem_append_left _)
  have hsame : connections o = [] →
      (connections (h ++ o)).map Connection.number = List.range s.connections := by
    intro hnone
    rw [connections_append, hnone, List.append_nil, w.numbers]
  cases hmove with
  | slot hslot =>
    rw [List.append_nil]
    exact ⟨w.numbers, w.ready_of_publishesNothing hslot, w.reading, w.asking, w.origin⟩
  | @connected _ slot genesis hslot =>
    refine ⟨?_, fun slot' chain hs hr => ?_, fun id reading hreading =>
      (w.reading id reading hreading).append, w.asking,
      EventMachine.justified_append_singleton.mpr ⟨w.origin, trivial⟩⟩
    · show (connections (h ++ [.connected ⟨s.connections, genesis⟩])).map Connection.number =
        List.range (s.connections + 1)
      rw [connections_append, List.map_append, w.numbers, List.range_succ]
      rfl
    · obtain rfl := Option.some.inj hs
      obtain rfl := hslot chain hr
      exact ⟨List.mem_append_right _ List.mem_cons_self, rfl⟩
  | policy hreader hstep =>
    refine ⟨hsame (connections_map_policy _), hready, fun id reading hreading =>
      (w.reading id reading hreading).append, fun id call hcall hasking => ?_, ?_⟩
    · rcases asking_of_step (move_of_step hstep) hcall hasking with rfl | ⟨-, call₀, hcall₀, hask₀⟩
      · exact absurd hreader (by simp [Event.isReader])
      · exact w.asking id call₀ hcall₀ hask₀
    · have horigin := w.origin_of_step (o := []) hstep (by rw [List.append_nil]; exact w.origin)
        fun id heq => absurd hreader (by rw [heq]; simp [Event.isReader])
      rwa [List.append_nil] at horigin
  | @gaveUp _ slot e id policy k hslot hevent hstep =>
    refine ⟨hsame (connections_map_policy _), fun slot' chain hs hr =>
      (w.ready_of_publishesNothing hslot slot' chain hs hr).imp_left (List.mem_append_left _),
      w.reading_of_update (by simp), fun id' call hcall hasking => ?_, ?_⟩
    · rcases asking_of_step (move_of_step hstep) hcall hasking with rfl |
        ⟨hnot, call₀, hcall₀, hask₀⟩
      · exact hevent.elim
      · obtain ⟨chain, hpinned⟩ := w.asking id' call₀ hcall₀ hask₀
        have hid : id' ≠ id := by
          rintro rfl
          exact hnot hevent
        exact ⟨chain, (Function.update_of_ne hid _ _).trans hpinned⟩
    · have horigin := w.origin_of_step (o := []) hstep (by rw [List.append_nil]; exact w.origin)
        fun id' heq => by
          rw [heq] at hevent
          exact hevent.elim
      rwa [List.append_nil] at horigin
  | @verifyHead _ slot id chain hslot hchain hgenesis hreading =>
    obtain ⟨hconnected, -⟩ := w.ready_of_publishesNothing hslot slot chain rfl hchain
    exact w.goesOn hslot (by simp [hreading]) ⟨hconnected, hgenesis⟩
  | @verifyRoot _ id chain hreading =>
    have hread : Reading.Accounted p h id (.verifyHead chain) := w.reading _ _ hreading
    exact w.goesOn (fun slot chain hs hr => ⟨slot, hs, hr⟩) (by simp [hreading]) hread
  | @checked id chain policy k hreading hstep =>
    have hchecked : EventMachine.Justified (Origin p) (h ++ [.checked id chain]) :=
      EventMachine.justified_append_singleton.mpr ⟨w.origin, w.reading _ _ hreading⟩
    refine ⟨hsame (connections_map_policy _), hready, w.reading_of_update (by simp),
      fun id' call hcall hasking => ?_, ?_⟩
    · rcases asking_of_step (move_of_step hstep) hcall hasking with heq | ⟨-, call₀, hcall₀, hask₀⟩
      · exact absurd heq (by simp)
      · exact w.asking_of_update (by simp [hreading]) hcall₀ hask₀
    · rw [List.append_cons]
      refine w.origin_of_step hstep hchecked fun id' heq => ?_
      obtain ⟨rfl, -⟩ := Event.verify.inj heq
      exact ⟨chain, List.mem_append_right _ List.mem_cons_self⟩
  | @snapshotHead _ slot id call chain hslot hchain hcall hphase hreading =>
    obtain ⟨hconnected, hlast⟩ := w.ready_of_publishesNothing hslot slot chain rfl hchain
    exact w.goesOn hslot (by simp [hreading]) ⟨hconnected, w.followsCheck a hcall hphase hlast⟩
  | @pinned _ id chain policy k hreading hstep =>
    have hpinned : EventMachine.Justified (Origin p) (h ++ [.pinned id chain]) :=
      EventMachine.justified_append_singleton.mpr ⟨w.origin, w.reading _ _ hreading⟩
    refine ⟨hsame (connections_map_policy _), hready, w.reading_of_update fun reading heq => ?_,
      fun id' call hcall hasking => ?_, ?_⟩
    · obtain rfl := Option.some.inj heq
      exact List.mem_append_right _ List.mem_cons_self
    · rcases asking_of_step (move_of_step hstep) hcall hasking with heq | ⟨-, call₀, hcall₀, hask₀⟩
      · obtain ⟨rfl, -⟩ := Event.snapshot.inj heq
        exact ⟨chain, Function.update_self _ _ _⟩
      · exact w.asking_of_update (by simp [hreading]) hcall₀ hask₀
    · rw [List.append_cons]
      exact w.origin_of_step hstep hpinned fun id' heq => absurd heq (by simp)

end Watched

/-! ## Runs -/

section

variable {p : CpsPolicy} {caches : Caches}

/-- **Every run is accounted for.**  A step needs the account of the policy too, which the policy
has of its own part of the run. -/
theorem watched_of_exec (hc : caches.Lawful) {es : List WorldEvent} {s : World caches}
    {h : List Sighting} (hrun : (policyMachine p caches).exec (p.start caches) es = some (s, h)) :
    Watched p h s := by
  refine EventMachine.exec_induction (P := fun _ h s => Watched p h s) .start ?_ hrun
  intro es h s e s' o hrun w hstep
  obtain ⟨fs, hfs⟩ := policy_exec_of_exec hrun
  exact w.step (accounted_of_exec hc hfs).1 (move_of_worldStep hstep)

/-- A connection is checked when it is answered that the root is on it. -/
theorem WorldMove.of_checked {s s' : World caches} {e : WorldEvent} {o : List Sighting} {id : ℕ}
    {chain : Connection} (hmove : WorldMove p s e s' o) (hmem : .checked id chain ∈ o) :
    e = .rootInfo id (.ok true) ∧ s.reading id = some (.verifyRoot chain) ∧
      ∃ k : List Observation, o = .checked id chain :: k.map .policy := by
  cases hmove with
  | checked hreading hstep =>
    rcases List.mem_cons.mp hmem with heq | hmem
    · obtain ⟨rfl, rfl⟩ := Sighting.checked.inj heq
      exact ⟨rfl, hreading, _, rfl⟩
    · exact absurd hmem (by simp)
  | _ => exact absurd hmem (by simp)

end

/-- A connection is checked in the step in which the chain answers the reader, which waits for
the root at the finalized head of this connection, that the root is there. -/
def RootFound (p : CpsPolicy) (caches : Caches) (es : List WorldEvent) (h : List Sighting) : Prop :=
  ∀ h₁ id chain h₂, h = h₁ ++ .checked id chain :: h₂ → ∃ es₁ es₂ s₁,
    es = es₁ ++ .rootInfo id (.ok true) :: es₂ ∧
      (policyMachine p caches).exec (p.start caches) es₁ = some (s₁, h₁) ∧
      s₁.reading id = some (.verifyRoot chain)

theorem rootFound_of_exec {p : CpsPolicy} {caches : Caches} {es : List WorldEvent}
    {s : World caches} {h : List Sighting}
    (hrun : (policyMachine p caches).exec (p.start caches) es = some (s, h)) :
    RootFound p caches es h := by
  intro h₁ id chain h₂ heq
  obtain ⟨es₁, e, es₂, r, r', k, o₁, o₂, rfl, hrun₁, hstep, rfl⟩ :=
    EventMachine.exists_step_of_exec hrun h₁ _ h₂ heq
  obtain ⟨rfl, hreading, l, ho⟩ := (move_of_worldStep hstep).of_checked
    (List.mem_append_right o₁ List.mem_cons_self)
  refine ⟨es₁, es₂, r, rfl, ?_, hreading⟩
  -- the check is the first that the step shows
  cases o₁ with
  | nil => rwa [List.append_nil]
  | cons b o₁ =>
    obtain ⟨-, htail⟩ := List.cons.inj ho
    have hmem : Sighting.checked id chain ∈ l.map Sighting.policy := by
      rw [← htail]
      exact List.mem_append_right o₁ List.mem_cons_self
    exact absurd hmem (by simp)

/-- Every allow comes from a snapshot taken after a connection to the expected chain
was verified: of this connection, or of one that was made later. -/
def VerifiedBefore (p : CpsPolicy) (h : List Sighting) : Sighting → Prop
  | .policy (.completed id _ true) => ∃ h₁ chain h₂ id' verified,
    h = h₁ ++ .pinned id chain :: h₂ ∧ .connected chain ∈ h₁ ∧ .checked id' verified ∈ h₁ ∧
      verified.genesis = p.expectedGenesis ∧ (chain = verified ∨ verified.number < chain.number)
  | _ => True

/-- **Verified before any decision.**  In every run, with connections lost and replaced
at any time, an allow comes from a snapshot that was taken after a connection with
the expected genesis hash was verified; the chain answered at that moment that the root is on
this connection; and the snapshot is one of that very connection, unless the supervisor has made
a later one. -/
theorem allow_verifiedBefore (p : CpsPolicy) (caches : Caches) (hc : caches.Lawful)
    (es : List WorldEvent) (s : World caches) (h : List Sighting)
    (hrun : (policyMachine p caches).exec (p.start caches) es = some (s, h)) :
    EventMachine.Justified (VerifiedBefore p) h ∧ RootFound p caches es h := by
  refine ⟨?_, rootFound_of_exec hrun⟩
  have w := watched_of_exec hc hrun
  rintro h₁ a h₂ rfl
  unfold VerifiedBefore
  split
  · next id sensor =>
    obtain ⟨chain, hpinned⟩ := w.origin h₁ _ h₂ rfl
    have hj₁ := (EventMachine.justified_append.mp w.origin).1
    obtain ⟨h₃, h₄, rfl, hconnected, id', verified, hchecked, hle⟩ := hj₁.exists_of_mem hpinned
    have hj₃ := (EventMachine.justified_append.mp hj₁).1
    obtain ⟨h₅, h₆, rfl, hconnected', hgenesis⟩ := hj₃.exists_of_mem hchecked
    refine ⟨_, chain, h₄, id', verified, rfl, hconnected, hchecked, hgenesis, ?_⟩
    rcases Nat.lt_or_eq_of_le hle with hlt | heq
    · exact .inr hlt
    · refine .inl (w.eq_of_number_eq ?_ ?_ heq.symm)
      · exact List.mem_append_left _ (List.mem_append_left _ hconnected)
      · exact List.mem_append_left _ (List.mem_append_left _ (List.mem_append_left _ hconnected'))
  · trivial

/-- Every allow comes from a snapshot of a connection to the expected chain, on which
the root was checked. -/
def NeverWrong (p : CpsPolicy) (h : List Sighting) : Sighting → Prop
  | .policy (.completed id _ true) => ∃ chain, .pinned id chain ∈ h ∧
    chain.genesis = p.expectedGenesis ∧ ∃ id', .checked id' chain ∈ h
  | _ => True

/-! The first sensor is allowed on the expected chain.  Then the connection is lost,
the next one is to another chain, and the second sensor is allowed there. -/

def genesisOf (n : UInt8) : FixedBytes 32 := .replicate 32 n

def smallPolicy : CpsPolicy := ⟨smallCps, genesisOf 7⟩

def replacedConnection : List WorldEvent :=
  [.prefetch, .connected (.ok (genesisOf 7)), .policy (.call .authorize (sensorOf 1)),
    .policy (.run 0), .policy (.run 0), .policy (.run 0), .take 0 true, .finalized 0 (.ok ()),
    .rootInfo 0 (.ok true), .take 0 true, .finalized 0 (.ok ()), .policy (.nodeOf 0 (.ok (some 3))),
    .policy (.lineage 0 (.ok (.parent 1))), .lost, .connected (.ok (genesisOf 9)),
    .policy (.call .authorize (sensorOf 2)), .policy (.run 1), .policy (.run 1), .policy (.run 1),
    .take 1 true, .finalized 1 (.ok ()), .policy (.nodeOf 1 (.ok (some 3))),
    .policy (.lineage 1 (.ok (.parent 1)))]

def replacedSightings : List Sighting :=
  [.connected ⟨0, genesisOf 7⟩, .checked 0 ⟨0, genesisOf 7⟩, .policy (.verified 0),
    .pinned 0 ⟨0, genesisOf 7⟩, .policy (.completed 0 (sensorOf 1) true),
    .connected ⟨1, genesisOf 9⟩, .pinned 1 ⟨1, genesisOf 9⟩,
    .policy (.completed 1 (sensorOf 2) true)]

theorem allow_verifiedBefore_replacedConnection :
    ∃ s, (policyMachine smallPolicy (recencyCache SensorId Entry)).exec
        (smallPolicy.start (recencyCache SensorId Entry)) replacedConnection =
        some (s, replacedSightings) ∧
      EventMachine.Justified (VerifiedBefore smallPolicy) replacedSightings ∧
      RootFound smallPolicy (recencyCache SensorId Entry) replacedConnection
        replacedSightings := by
  have hshown : ((policyMachine smallPolicy (recencyCache SensorId Entry)).exec
      (smallPolicy.start (recencyCache SensorId Entry)) replacedConnection).map Prod.snd =
      some replacedSightings := by
    decide +kernel
  obtain ⟨⟨s, h⟩, hrun, rfl⟩ := Option.map_eq_some_iff.mp hshown
  exact ⟨s, hrun, allow_verifiedBefore smallPolicy (recencyCache SensorId Entry)
    (recencyCache_lawful SensorId Entry) replacedConnection s _ hrun⟩

/-- **A later connection is not verified.** -/
theorem not_neverWrong_replacedConnection :
    ∃ s, (policyMachine smallPolicy (recencyCache SensorId Entry)).exec
        (smallPolicy.start (recencyCache SensorId Entry)) replacedConnection =
        some (s, replacedSightings) ∧
      ¬ EventMachine.Justified (NeverWrong smallPolicy) replacedSightings := by
  have hshown : ((policyMachine smallPolicy (recencyCache SensorId Entry)).exec
      (smallPolicy.start (recencyCache SensorId Entry)) replacedConnection).map Prod.snd =
      some replacedSightings := by
    decide +kernel
  obtain ⟨⟨s, h⟩, hrun, rfl⟩ := Option.map_eq_some_iff.mp hshown
  refine ⟨s, hrun, fun hj => ?_⟩
  obtain ⟨chain, hpinned, hgenesis, -⟩ := hj (replacedSightings.dropLast) _ [] rfl
  have hchain : chain = ⟨1, genesisOf 9⟩ := by
    simpa [replacedSightings] using hpinned
  rw [hchain] at hgenesis
  exact absurd hgenesis (by decide)

end Auth
end Robins
