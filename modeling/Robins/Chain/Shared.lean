import Mathlib.Tactic.Ring
import Robins.Chain.Callers

/-!
# One connection for all callers

What callers of the registry may rely on, however they and the supervisors interleave, follows from
two facts.

## Slots reflect their attempts

What the slots say at any time is what the attempts made for them have come to: one attempt after
the other, none after a permanent failure.  `Reflects` relates a slot with the attempts of its
endpoint, as the history shows them.  While the supervisor is connecting there is one more
beginning than there are ends, and never more; a slot with a connection says that the last attempt
made it; a slot that has failed says that the last attempt failed for good.

## Connections that were given

A connection that was given to a caller is either still that of its slot, or it is lost.  This is
what makes the check at the end of `try_get` worth its while, since the slot may have changed since
the caller read it.  `Supervised` has both facts, and `Supervised.step` carries them over every
step of the registry.

## After a permanent failure

A slot that was given up is never asked for anything again, so from that moment everybody is told
the same (`GivenUp`).  This part is about what follows a state in the run, and is an induction from
there: whoever asks is answered at once, whoever waits can be, and there is no further attempt.
-/

namespace Robins
namespace Chain

/-! ## The attempts of an endpoint

A supervisor makes one attempt after the other, and every attempt but the last has ended in a way
that allows another.  `Reflects` lists the shapes this leaves for the history of an endpoint, one
for each state of its slot, and the facts about attempts are read off the shapes. -/

/-- The attempt an observation is about, if it is one of this endpoint. -/
def Observation.attempt? (endpoint : Endpoint) : Observation → Option Attempt
  | .attempt endpoint' a => if endpoint' = endpoint then some a else none
  | _ => none

/-- The start of a supervisor of this endpoint. -/
def Observation.isSpawned (endpoint : Endpoint) : Observation → Bool
  | .spawned endpoint' => endpoint' = endpoint
  | _ => false

/-- The attempts of an endpoint, as they began and ended. -/
def attempts (h : List Observation) (endpoint : Endpoint) : List Attempt :=
  h.filterMap (Observation.attempt? endpoint)

/-- How many supervisors an endpoint was given. -/
def supervisors (h : List Observation) (endpoint : Endpoint) : ℕ :=
  h.countP (Observation.isSpawned endpoint)

def Attempt.isStarted : Attempt → Bool
  | .started => true
  | .finished _ => false

/-- How many more attempts have begun than ended. -/
def inFlight (log : List Attempt) : ℤ :=
  log.countP Attempt.isStarted - log.countP (!Attempt.isStarted ·)

/-- Attempts that were not the last. -/
def Repeated (past : List (Except ChainError ℕ)) : Prop :=
  ∀ message, .error (.permanent message) ∉ past

/-- One attempt after the other, with these results. -/
def completed (past : List (Except ChainError ℕ)) : List Attempt :=
  past.flatMap fun result => [.started, .finished result]

/-- What a slot says about the attempts made for it. -/
inductive Reflects : List Attempt → Slot ℕ → Prop
  | connecting {past : List (Except ChainError ℕ)} (hpast : Repeated past) (failures : UInt32) :
    Reflects (completed past ++ [.started]) ⟨.connecting, .connecting failures⟩
  | ready {past : List (Except ChainError ℕ)} (hpast : Repeated past) (chain : ℕ) :
    Reflects (completed (past ++ [.ok chain])) ⟨.ready chain, .holding chain⟩
  | retrying {past : List (Except ChainError ℕ)} (hpast : Repeated past) (message : String)
    (failures : UInt32) (delay : Duration) :
    Reflects (completed (past ++ [.error (.transient message)]))
      ⟨.retrying message, .backoff failures delay⟩
  | failed {past : List (Except ChainError ℕ)} (hpast : Repeated past) (message : String) :
    Reflects (completed (past ++ [.error (.permanent message)])) ⟨.failed message, .stopped⟩

theorem attempts_append (h o : List Observation) (endpoint : Endpoint) :
    attempts (h ++ o) endpoint = attempts h endpoint ++ attempts o endpoint :=
  List.filterMap_append

theorem supervisors_append (h o : List Observation) (endpoint : Endpoint) :
    supervisors (h ++ o) endpoint = supervisors h endpoint + supervisors o endpoint :=
  List.countP_append

theorem attempts_spawn (endpoint endpoint' : Endpoint) :
    attempts [.spawned endpoint, .attempt endpoint .started] endpoint' =
      if endpoint = endpoint' then [.started] else [] := by
  by_cases h : endpoint = endpoint' <;>
    simp [attempts, List.filterMap_cons, Observation.attempt?, h]

theorem supervisors_spawn (endpoint endpoint' : Endpoint) :
    supervisors [.spawned endpoint, .attempt endpoint .started] endpoint' =
      if endpoint = endpoint' then 1 else 0 := by
  by_cases h : endpoint = endpoint' <;>
    simp [supervisors, Observation.isSpawned, h]

theorem completed_append (past past' : List (Except ChainError ℕ)) :
    completed (past ++ past') = completed past ++ completed past' :=
  List.flatMap_append

theorem completed_singleton (result : Except ChainError ℕ) :
    completed [result] = [.started, .finished result] := rfl

theorem inFlight_append (log log' : List Attempt) :
    inFlight (log ++ log') = inFlight log + inFlight log' := by
  unfold inFlight
  rw [List.countP_append, List.countP_append]
  push_cast
  ring

@[simp] theorem inFlight_completed (past : List (Except ChainError ℕ)) :
    inFlight (completed past) = 0 := by
  induction past with
  | nil => rfl
  | cons result past ih =>
    rw [← List.singleton_append, completed_append, inFlight_append, ih]
    rfl

theorem mem_completed {past : List (Except ChainError ℕ)} {result : Except ChainError ℕ} :
    .finished result ∈ completed past ↔ result ∈ past := by
  simp [completed]

theorem Repeated.snoc {past : List (Except ChainError ℕ)} (h : Repeated past)
    {result : Except ChainError ℕ} (hresult : ∀ message, result ≠ .error (.permanent message)) :
    Repeated (past ++ [result]) := by
  intro message hmem
  rcases List.mem_append.mp hmem with hmem | hmem
  · exact h message hmem
  · exact hresult message (List.mem_singleton.mp hmem).symm

namespace Reflects

variable {log : List Attempt} {slot slot' : Slot ℕ} {e : Supervision ℕ}

theorem start : Reflects [.started] .start :=
  @Reflects.connecting [] (by simp [Repeated]) 0

/-- **One step of the supervisor.** -/
theorem supervise (hlog : Reflects log slot) (hstep : slot.supervise e = some slot') :
    Reflects (log ++ [e.attempt]) slot' := by
  cases hlog with
  | @connecting past hpast failures =>
    have hfinished : ∀ result, completed past ++ [.started] ++ [.finished result] =
        completed (past ++ [result]) := by
      intro result
      rw [completed_append, completed_singleton, List.append_assoc]
      rfl
    cases e with
    | connected result =>
      rcases result with (message | message) | chain
      · obtain rfl := Option.some.inj hstep
        rw [Supervision.attempt, hfinished]
        exact .retrying hpast message _ _
      · obtain rfl := Option.some.inj hstep
        rw [Supervision.attempt, hfinished]
        exact .failed hpast message
      · obtain rfl := Option.some.inj hstep
        rw [Supervision.attempt, hfinished]
        exact .ready hpast chain
    | lost | slept => exact absurd hstep (by simp [Slot.supervise])
  | ready hpast chain =>
    cases e with
    | lost =>
      obtain rfl := Option.some.inj hstep
      exact .connecting (hpast.snoc (by simp)) 0
    | connected _ | slept => exact absurd hstep (by simp [Slot.supervise])
  | retrying hpast message failures delay =>
    cases e with
    | slept =>
      obtain rfl := Option.some.inj hstep
      exact .connecting (hpast.snoc (by simp)) failures
    | connected _ | lost => exact absurd hstep (by simp [Slot.supervise])
  | failed hpast message => cases e <;> exact absurd hstep (by simp [Slot.supervise])

theorem inFlight_le_one (hlog : Reflects log slot) : inFlight log ≤ 1 := by
  cases hlog with
  | connecting =>
    rw [inFlight_append, inFlight_completed]
    decide
  | _ => simp

/-- The connection of a slot is that of the last attempt. -/
theorem getLast?_of_ready (hlog : Reflects log slot) {chain : ℕ} (h : slot.state = .ready chain) :
    log.getLast? = some (.finished (.ok chain)) := by
  cases hlog with
  | ready hpast chain' =>
    obtain rfl := SlotState.ready.inj h
    rw [completed_append, completed_singleton]
    simp
  | _ => exact absurd h (by simp)

theorem holding_of_ready (hlog : Reflects log slot) {chain : ℕ}
    (h : slot.state = .ready chain) : slot.supervisor = .holding chain := by
  cases hlog with
  | ready hpast chain' => rw [SlotState.ready.inj h]
  | _ => exact absurd h (by simp)

/-- After a permanent failure the supervisor is gone. -/
theorem failed_of_mem (hlog : Reflects log slot) {message : String}
    (h : .finished (.error (.permanent message)) ∈ log) :
    slot = ⟨.failed message, .stopped⟩ := by
  cases hlog with
  | connecting hpast =>
    rw [List.mem_append, mem_completed] at h
    rcases h with h | h
    · exact absurd h (hpast message)
    · exact absurd h (by simp)
  | ready hpast chain => exact absurd (mem_completed.mp h) (hpast.snoc (by simp) message)
  | retrying hpast => exact absurd (mem_completed.mp h) (hpast.snoc (by simp) message)
  | failed hpast message' =>
    rcases List.mem_append.mp (mem_completed.mp h) with h | h
    · exact absurd h (hpast message)
    · obtain rfl : message = message' := by simpa using h
      rfl

end Reflects

/-! ## The invariant

Most steps concern callers, and change neither a slot nor the attempts (`quiet`, `goOn`, `wait`).
Three kinds do: a caller starts the supervisor of a new slot, a supervisor goes on, and something
happens to a connection.  The last is where a connection may be lost that a caller still holds,
which the second half of the invariant allows. -/

/-- Every slot reflects the attempts made for it, and every connection a caller was given
is either still that of its slot, or lost. -/
structure Supervised {C E : Type} (link : Link C E) (h : List Observation)
    (r : ChainRegistry C) : Prop where
  unsupervised : ∀ endpoint, r.slots endpoint = none →
    attempts h endpoint = [] ∧ supervisors h endpoint = 0
  supervised : ∀ endpoint slot, r.slots endpoint = some slot →
    Reflects (attempts h endpoint) slot ∧ supervisors h endpoint = 1
  held : ∀ endpoint slot id, r.slots endpoint = some slot → slot.state = .ready id →
    id < r.chains.length
  checking : ∀ caller endpoint id, r.callers caller = some (.checking endpoint id) →
    ∃ chain, r.chains[id]? = some chain ∧
      ((∃ slot, r.slots endpoint = some slot ∧ slot.state = .ready id) ∨ link.lost chain = true)

/-- An observation that says nothing about supervisors and their attempts. -/
def Observation.IsQuiet (a : Observation) : Prop :=
  ∀ endpoint, a.attempt? endpoint = none ∧ a.isSpawned endpoint = false

theorem isQuiet_called (caller : ℕ) (call : Call) (endpoint : Endpoint) :
    (Observation.called caller call endpoint).IsQuiet := fun _ => ⟨rfl, rfl⟩

theorem isQuiet_returned (caller : ℕ) (call : Call) (endpoint : Endpoint)
    (result : Except ChainError ℕ) :
    (Observation.returned caller call endpoint result).IsQuiet := fun _ => ⟨rfl, rfl⟩

namespace Supervised

variable {C E : Type} {link : Link C E} {h : List Observation} {r r' : ChainRegistry C}

theorem new (link : Link C E) : Supervised link [] .new where
  unsupervised _ _ := ⟨rfl, rfl⟩
  supervised _ _ hslot := absurd hslot (by simp [ChainRegistry.new])
  held _ _ _ hslot := absurd hslot (by simp [ChainRegistry.new])
  checking _ _ _ hcaller := absurd hcaller (by simp [ChainRegistry.new])

/-- What is shown about callers does not matter here. -/
theorem quiet (i : Supervised link h r) {a : Observation} (ha : a.IsQuiet) :
    Supervised link (h ++ [a]) r := by
  have hattempts : ∀ endpoint, attempts (h ++ [a]) endpoint = attempts h endpoint := by
    intro endpoint
    simp [attempts, (ha endpoint).1]
  have hsupervisors : ∀ endpoint, supervisors (h ++ [a]) endpoint = supervisors h endpoint := by
    intro endpoint
    rw [supervisors_append, supervisors, supervisors, List.countP_singleton, (ha endpoint).2]
    rfl
  refine ⟨fun endpoint hslot => ?_, fun endpoint slot hslot => ?_, i.held, i.checking⟩
  · rw [hattempts, hsupervisors]
    exact i.unsupervised endpoint hslot
  · rw [hattempts, hsupervisors]
    exact i.supervised endpoint slot hslot

/-- A caller goes on.  What it has to check, if anything, is the connection of a slot. -/
theorem goOn (i : Supervised link h r) (caller : ℕ) (next : Option Caller)
    (hnext : ∀ endpoint id, next = some (.checking endpoint id) →
      ∃ slot, r.slots endpoint = some slot ∧ slot.state = .ready id) :
    Supervised link h { r with callers := Function.update r.callers caller next } where
  unsupervised := i.unsupervised
  supervised := i.supervised
  held := i.held
  checking caller' endpoint id hcaller := by
    by_cases heq : caller' = caller
    · subst heq
      obtain ⟨slot, hslot, hready⟩ := hnext endpoint id (by simpa using hcaller)
      have hlt : id < r.chains.length := i.held endpoint slot id hslot hready
      exact ⟨r.chains[id], List.getElem?_eq_getElem hlt, .inl ⟨slot, hslot, hready⟩⟩
    · exact i.checking caller' endpoint id (by simpa [heq] using hcaller)

theorem leave (i : Supervised link h r) (caller : ℕ) :
    Supervised link h { r with callers := Function.update r.callers caller none } :=
  i.goOn caller none (by simp)

/-- A caller that has to wait for the slot. -/
theorem wait (i : Supervised link h r) (caller : ℕ) (endpoint : Endpoint) :
    Supervised link h (r.park caller (.waiting endpoint)) :=
  i.goOn caller (some (.waiting endpoint)) (by simp)

theorem found (i : Supervised link h r) (caller : ℕ) {endpoint : Endpoint} {slot : Slot ℕ}
    {id : ℕ} (hslot : r.slots endpoint = some slot) (hready : slot.state = .ready id) :
    Supervised link h (r.park caller (.checking endpoint id)) := by
  refine i.goOn caller (some (.checking endpoint id)) fun endpoint' id' heq => ?_
  obtain ⟨rfl, rfl⟩ : endpoint = endpoint' ∧ id = id' := by simpa using heq
  exact ⟨slot, hslot, hready⟩

/-- One slot changes, and what is shown is about its endpoint.  The connection it had, if
any, is lost. -/
theorem update (i : Supervised link h r) {endpoint : Endpoint} {slot : Slot ℕ}
    {o : List Observation}
    (hother : ∀ endpoint', endpoint' ≠ endpoint →
      attempts o endpoint' = [] ∧ supervisors o endpoint' = 0)
    (hreflects : Reflects (attempts (h ++ o) endpoint) slot)
    (hone : supervisors (h ++ o) endpoint = 1)
    (hready : ∀ id, slot.state = .ready id → id < r.chains.length)
    (hlost : ∀ before id, r.slots endpoint = some before → before.state = .ready id →
      (r.chains[id]?).any link.lost = true) :
    Supervised link (h ++ o) { r with slots := Function.update r.slots endpoint (some slot) } where
  unsupervised endpoint' hnone := by
    have hne : endpoint' ≠ endpoint := by
      rintro rfl
      exact absurd hnone (by simp)
    obtain ⟨hattempts, hsupervisors⟩ := hother endpoint' hne
    rw [attempts_append, supervisors_append, hattempts, hsupervisors, List.append_nil]
    exact i.unsupervised endpoint' (by simpa [hne] using hnone)
  supervised endpoint' slot' hsome := by
    by_cases heq : endpoint' = endpoint
    · subst heq
      obtain rfl : slot = slot' := by simpa using hsome
      exact ⟨hreflects, hone⟩
    · obtain ⟨hattempts, hsupervisors⟩ := hother endpoint' heq
      rw [attempts_append, supervisors_append, hattempts, hsupervisors, List.append_nil]
      exact i.supervised endpoint' slot' (by simpa [heq] using hsome)
  held endpoint' slot' id hsome hstate := by
    by_cases heq : endpoint' = endpoint
    · subst heq
      obtain rfl : slot = slot' := by simpa using hsome
      exact hready id hstate
    · exact i.held endpoint' slot' id (by simpa [heq] using hsome) hstate
  checking caller endpoint' id hcaller := by
    obtain ⟨chain, hchain, hcurrent⟩ := i.checking caller endpoint' id hcaller
    refine ⟨chain, hchain, ?_⟩
    rcases hcurrent with ⟨before, hbefore, hstate⟩ | hgone
    · by_cases heq : endpoint' = endpoint
      · subst heq
        have hany := hlost before id hbefore hstate
        rw [hchain, Option.any_some] at hany
        exact .inr hany
      · exact .inl ⟨before, by simpa [heq] using hbefore, hstate⟩
    · exact .inr hgone

/-- The slot of an endpoint, if need be with a new supervisor. -/
theorem slot (i : Supervised link h r) (endpoint : Endpoint) :
    Supervised link (h ++ (r.slot endpoint).2.2) (r.slot endpoint).1 ∧
      (r.slot endpoint).1.slots endpoint = some (r.slot endpoint).2.1 := by
  unfold ChainRegistry.slot
  cases hslot : r.slots endpoint with
  | some slot =>
    rw [List.append_nil]
    exact ⟨i, hslot⟩
  | none =>
    obtain ⟨hattempts, hsupervisors⟩ := i.unsupervised endpoint hslot
    refine ⟨i.update (fun endpoint' hne => ?_) ?_ ?_ (fun id hready => ?_)
      (fun before id hbefore => ?_), by simp⟩
    · rw [attempts_spawn, supervisors_spawn, if_neg hne.symm, if_neg hne.symm]
      exact ⟨rfl, rfl⟩
    · rw [attempts_append, attempts_spawn, if_pos rfl, hattempts]
      exact Reflects.start
    · rw [supervisors_append, supervisors_spawn, if_pos rfl, hsupervisors]
    · exact absurd hready (by simp [Slot.start])
    · exact absurd (hslot.symm.trans hbefore) (by simp)

/-- The supervisor goes on.  Connections only ever leave a slot when they are lost. -/
theorem supervise (i : Supervised link h r) {endpoint : Endpoint} {e : Supervision ℕ}
    {slot slot' : Slot ℕ} (hslot : r.slots endpoint = some slot)
    (hslot' : slot.supervise e = some slot')
    (hconnected : ∀ id, e = .connected (.ok id) → id < r.chains.length)
    (hlost : ∀ id, slot.supervisor = .holding id → (r.chains[id]?).any link.lost = true) :
    Supervised link (h ++ [.attempt endpoint e.attempt])
      { r with slots := Function.update r.slots endpoint (some slot') } := by
  obtain ⟨hreflects, hone⟩ := i.supervised endpoint slot hslot
  refine i.update (fun endpoint' hne => ?_) ?_ ?_ (fun id hready => ?_)
    (fun before id hbefore hready => ?_)
  · simp [attempts, supervisors, Observation.attempt?, Observation.isSpawned, Ne.symm hne]
  · have hnext := hreflects.supervise hslot'
    simpa [attempts, Observation.attempt?] using hnext
  · rw [supervisors_append, hone]
    simp [supervisors, Observation.isSpawned]
  · exact hconnected id (Slot.connected_of_ready hslot' hready)
  · obtain rfl := Option.some.inj (hslot.symm.trans hbefore)
    exact hlost id (hreflects.holding_of_ready hready)

theorem connect (i : Supervised link h r) (chain : C) :
    Supervised link h { r with chains := r.chains ++ [chain] } where
  unsupervised := i.unsupervised
  supervised := i.supervised
  held endpoint slot id hslot hready := by
    have hlt := i.held endpoint slot id hslot hready
    simp only [List.length_append, List.length_singleton]
    omega
  checking caller endpoint id hcaller := by
    obtain ⟨chain', hchain, hcurrent⟩ := i.checking caller endpoint id hcaller
    have hlt : id < r.chains.length := (List.getElem?_eq_some_iff.mp hchain).1
    exact ⟨chain', (List.getElem?_append_left hlt).trans hchain, hcurrent⟩

/-- Something happens to a connection: one that is lost stays lost. -/
theorem link_step (i : Supervised link h r) (hfinal : link.Final) {id : ℕ} {e : E}
    {chain chain' : C} (hchain : r.chains[id]? = some chain)
    (hstep : link.step chain e = some chain') :
    Supervised link h { r with chains := r.chains.set id chain' } where
  unsupervised := i.unsupervised
  supervised := i.supervised
  held endpoint slot id' hslot hready := by
    rw [List.length_set]
    exact i.held endpoint slot id' hslot hready
  checking caller endpoint id' hcaller := by
    obtain ⟨chain'', hchain'', hcurrent⟩ := i.checking caller endpoint id' hcaller
    by_cases heq : id' = id
    · subst heq
      obtain rfl := Option.some.inj (hchain.symm.trans hchain'')
      have hlt : id' < r.chains.length := (List.getElem?_eq_some_iff.mp hchain).1
      exact ⟨chain', List.getElem?_set_self hlt, hcurrent.imp_right (hfinal.lost_step hstep)⟩
    · exact ⟨chain'', (List.getElem?_set_ne (Ne.symm heq)).trans hchain'', hcurrent⟩

theorem step (i : Supervised link h r) (hfinal : link.Final) {e : Event C E}
    {o : List Observation} (hmove : Move link r e r' o) : Supervised link (h ++ o) r' := by
  cases hmove with
  | prefetch endpoint => exact (i.slot endpoint).1
  | get hnew endpoint =>
    rw [← List.append_assoc]
    exact ((i.slot endpoint).1.quiet (isQuiet_called _ _ _)).wait _ endpoint
  | @settle caller => exact (i.quiet (isQuiet_returned _ _ _ _)).leave caller
  | @found caller endpoint id hnew hresolve =>
    obtain ⟨hslot, hsome⟩ := i.slot endpoint
    rw [← List.append_assoc]
    exact (hslot.quiet (isQuiet_called _ _ _)).found caller hsome
      (SlotState.ready_of_resolve hresolve)
  | @refuse caller endpoint error =>
    have hcalled := (i.slot endpoint).1.quiet (isQuiet_called caller .tryGet endpoint)
    have hreturned := hcalled.quiet (isQuiet_returned caller .tryGet endpoint (.error error))
    rw [List.append_assoc, List.append_assoc] at hreturned
    exact hreturned.leave caller
  | @check caller => exact (i.quiet (isQuiet_returned _ _ _ _)).leave caller
  | @cancel caller =>
    rw [List.append_nil]
    exact i.leave caller
  | connected chain hslot hstep =>
    refine (i.connect chain).supervise hslot hstep (fun id heq => ?_) fun id hholding => ?_
    · obtain rfl := Except.ok.inj (Supervision.connected.inj heq)
      simp
    · exact absurd (Slot.lost_of_holding hstep hholding) (by simp)
  | supervised hslot hstep hconnected hlost =>
    exact i.supervise hslot hstep (fun id heq => absurd heq (hconnected id)) hlost
  | link hchain hstep =>
    rw [List.append_nil]
    exact i.link_step hfinal hchain hstep

theorem of_exec (hfinal : link.Final) {es : List (Event C E)}
    (hrun : (registryMachine link).exec .new es = some (r, h)) : Supervised link h r :=
  EventMachine.exec_induction (P := fun _ h r => Supervised link h r) (new link)
    (fun _ _ _ _ _ _ _ i hstep => i.step hfinal (move_of_step hstep)) hrun

/-- A caller that gets a connection gets that of the last attempt, and one that must not
wait gets it only while it is in sync. -/
theorem current (i : Supervised link h r) (hfinal : link.Final) {e : Event C E} {caller : ℕ}
    {call : Call} {endpoint : Endpoint} {id : ℕ}
    (hanswer : Answers link r e caller call endpoint (.ok id)) :
    (attempts h endpoint).getLast? = some (.finished (.ok id)) ∧
      (call = .tryGet → (r.chains[id]?).any link.inSync = true) := by
  obtain ⟨result, hresult⟩ : ∃ result, result = Except.ok id := ⟨_, rfl⟩
  rw [← hresult] at hanswer
  cases hanswer with
  | @settle _ _ slot hwaiting hslot =>
    have hready := SlotState.ready_of_resolve hresult
    exact ⟨(i.supervised _ slot hslot).1.getLast?_of_ready hready, by simp⟩
  | @check _ _ id' chain hchecking hchain =>
    unfold checkInSync at hresult
    split_ifs at hresult with hinSync
    obtain rfl := Except.ok.inj hresult
    refine ⟨?_, fun _ => by rw [hchain, Option.any_some, hinSync]⟩
    -- a connection in sync is not lost, so its slot still holds it
    obtain ⟨chain', hchain', hcurrent⟩ := i.checking _ _ _ hchecking
    obtain rfl := Option.some.inj (hchain.symm.trans hchain')
    rcases hcurrent with ⟨slot, hslot, hready⟩ | hlost
    · exact (i.supervised _ slot hslot).1.getLast?_of_ready hready
    · rw [hfinal.not_inSync hlost] at hinSync
      exact absurd hinSync (by simp)
  | refuse _ _ => exact absurd hresult (by simp)

end Supervised

/-! ## After a permanent failure

A supervisor that has stopped has no event that moves its slot, and no caller can start another
while the slot is there.  So this part of the state is fixed, and the answer of every call can be
computed from it. -/

/-- Whoever asks for the endpoint is told that nothing will be retried. -/
def Refuses (endpoint : Endpoint) (message : String) (h : List Observation) :
    Observation → Prop
  | .returned caller _ endpoint' result => endpoint' = endpoint →
    (∃ call, .called caller call endpoint ∈ h) → result = .error (.permanent message)
  | _ => True

/-- What is shown since the endpoint was given up, and what has become of it. -/
structure GivenUp {C : Type} (endpoint : Endpoint) (message : String) (h : List Observation)
    (r : ChainRegistry C) : Prop where
  slot : r.slots endpoint = some ⟨.failed message, .stopped⟩
  noAttempt : attempts h endpoint = []
  /-- Who still holds a connection has asked before. -/
  checking : ∀ caller id, r.callers caller = some (.checking endpoint id) →
    ∀ call, .called caller call endpoint ∉ h
  refuses : EventMachine.Justified (Refuses endpoint message) h

section

variable {C E : Type} {link : Link C E} {r r' : ChainRegistry C} {e : Event C E}
  {h o : List Observation} {endpoint : Endpoint}

/-- Asking for a slot leaves those alone that are there. -/
theorem ChainRegistry.slot_of_some {slot : Slot ℕ} (hslot : r.slots endpoint = some slot)
    (endpoint' : Endpoint) :
    (r.slot endpoint').1.slots endpoint = some slot ∧
      attempts (r.slot endpoint').2.2 endpoint = [] := by
  unfold ChainRegistry.slot
  cases hslot' : r.slots endpoint' with
  | some slot' => exact ⟨hslot, rfl⟩
  | none =>
    have hne : endpoint ≠ endpoint' := by
      rintro rfl
      exact absurd (hslot'.symm.trans hslot) (by simp)
    exact ⟨by simpa [hne] using hslot, (attempts_spawn _ _).trans (if_neg hne.symm)⟩

theorem ChainRegistry.slot_eq_of_some {slot : Slot ℕ} (hslot : r.slots endpoint = some slot) :
    (r.slot endpoint).2.1 = slot := by
  unfold ChainRegistry.slot
  rw [hslot]

/-- **One step** does nothing for an endpoint whose supervisor has stopped. -/
theorem slots_of_stopped (hmove : Move link r e r' o) {slot : Slot ℕ}
    (hslot : r.slots endpoint = some slot) (hstopped : slot.supervisor = .stopped) :
    r'.slots endpoint = some slot ∧ attempts o endpoint = [] := by
  have hother : ∀ {endpoint' : Endpoint} {supervision : Supervision ℕ} {slot₀ slot₁ : Slot ℕ},
      r.slots endpoint' = some slot₀ → slot₀.supervise supervision = some slot₁ →
      endpoint ≠ endpoint' := by
    rintro endpoint' supervision slot₀ slot₁ hslot₀ hstep rfl
    obtain rfl := Option.some.inj (hslot.symm.trans hslot₀)
    cases supervision <;> simp [Slot.supervise, hstopped] at hstep
  cases hmove with
  | prefetch endpoint' => exact ChainRegistry.slot_of_some hslot endpoint'
  | get hnew endpoint' =>
    obtain ⟨hsame, hquiet⟩ := ChainRegistry.slot_of_some hslot endpoint'
    exact ⟨hsame, by rw [attempts_append, hquiet]; rfl⟩
  | @found _ endpoint' | @refuse _ endpoint' =>
    obtain ⟨hsame, hquiet⟩ := ChainRegistry.slot_of_some hslot endpoint'
    exact ⟨hsame, by rw [attempts_append, hquiet]; rfl⟩
  | settle | check | cancel | link => exact ⟨hslot, rfl⟩
  | connected chain hslot₀ hstep =>
    have hne := hother hslot₀ hstep
    exact ⟨by simpa [hne] using hslot, by simp [attempts, Observation.attempt?, hne.symm]⟩
  | supervised hslot₀ hstep =>
    have hne := hother hslot₀ hstep
    exact ⟨by simpa [hne] using hslot, by simp [attempts, Observation.attempt?, hne.symm]⟩

namespace GivenUp

variable {message : String}

theorem start (hslot : r.slots endpoint = some ⟨.failed message, .stopped⟩) :
    GivenUp endpoint message [] r :=
  ⟨hslot, rfl, fun _ _ _ _ => List.not_mem_nil, EventMachine.justified_nil _⟩

/-- Who is answered and has asked since is told the permanent error. -/
theorem result_eq (g : GivenUp endpoint message h r) {caller : ℕ} {call : Call}
    {result : Except ChainError ℕ} (hanswer : Answers link r e caller call endpoint result)
    (hmove : Move link r e r' o) {o₁ : List Observation} (hshown : ∀ a ∈ o₁, a ∈ o) {call' : Call}
    (hcalled : .called caller call' endpoint ∈ h ++ o₁) :
    result = .error (.permanent message) := by
  cases hanswer with
  | settle hwaiting hslot =>
    obtain rfl := Option.some.inj (g.slot.symm.trans hslot)
    rfl
  | check hchecking hchain =>
    rcases List.mem_append.mp hcalled with hmem | hmem
    · exact absurd hmem (g.checking _ _ hchecking call')
    · have hnone := callers_of_called hmove (hshown _ hmem)
      exact absurd (hnone.symm.trans hchecking) (by simp)
  | refuse hnew herror =>
    rw [ChainRegistry.slot_eq_of_some g.slot] at herror
    rw [← Except.error.inj herror]

theorem step (g : GivenUp endpoint message h r) (hmove : Move link r e r' o) :
    GivenUp endpoint message (h ++ o) r' := by
  obtain ⟨hslot, hquiet⟩ := slots_of_stopped hmove g.slot rfl
  refine ⟨hslot, by rw [attempts_append, g.noAttempt, hquiet]; rfl, ?_, ?_⟩
  · intro caller id hchecking call hcalled
    rcases checking_of_move hmove hchecking with hbefore | hfound
    · rcases List.mem_append.mp hcalled with hmem | hmem
      · exact g.checking caller id hbefore call hmem
      · have hnone := callers_of_called hmove hmem
        exact absurd (hnone.symm.trans hbefore) (by simp)
    · rw [ChainRegistry.slot_eq_of_some g.slot] at hfound
      exact absurd hfound (by simp [SlotState.resolve])
  · refine EventMachine.justified_append.mpr ⟨g.refuses, fun o₁ a o₂ heq => ?_⟩
    cases a with
    | returned caller call endpoint' result =>
      rintro rfl ⟨call', hcalled⟩
      have hanswer : Answers link r e caller call endpoint' result := by
        refine answers_of_move hmove ?_
        rw [heq]
        exact List.mem_append_right _ List.mem_cons_self
      refine g.result_eq hanswer hmove (fun a ha => ?_) hcalled
      rw [heq]
      exact List.mem_append_left _ ha
    | _ => trivial

/-- Who waits can be answered. -/
theorem isSome_settle (g : GivenUp endpoint message h r) {caller : ℕ}
    (hwaiting : r.callers caller = some (.waiting endpoint)) :
    (r.step link (.settle caller)).isSome = true := by
  simp [ChainRegistry.step, hwaiting, g.slot]

theorem of_exec {r₀ : ChainRegistry C}
    (hslot : r₀.slots endpoint = some ⟨.failed message, .stopped⟩)
    {es : List (Event C E)} (hrun : (registryMachine link).exec r₀ es = some (r, h)) :
    GivenUp endpoint message h r :=
  EventMachine.exec_induction (P := fun _ h r => GivenUp endpoint message h r) (start hslot)
    (fun _ _ _ _ _ _ _ g hstep => g.step (move_of_step hstep)) hrun

end GivenUp

end

/-! ## The guarantee -/

theorem mem_attempts {h : List Observation} {endpoint : Endpoint} {a : Attempt} :
    a ∈ attempts h endpoint ↔ .attempt endpoint a ∈ h := by
  rw [attempts, List.mem_filterMap]
  constructor
  · rintro ⟨b, hb, heq⟩
    cases b with
    | attempt endpoint' a' =>
      simp only [Observation.attempt?] at heq
      split_ifs at heq with hendpoint
      rw [← hendpoint, ← Option.some.inj heq]
      exact hb
    | _ => exact absurd heq (by simp [Observation.attempt?])
  · exact fun hmem => ⟨_, hmem, if_pos rfl⟩

/-- **The shared connection.**  However callers, connection attempts and losses interleave,
an endpoint has at most one attempt in flight and at most one supervisor; a caller that is
cancelled changes neither; who is given a connection is given that of the last attempt, and
`try_get` gives it only while it is in sync; and after a permanent failure there is no
further attempt, and whoever asks is told so without waiting. -/
theorem shared_connection (es : List (Event Chain Light.Event)) (r : ChainRegistry Chain)
    (h : List Observation) (hrun : (registryMachine chainLink).exec .new es = some (r, h)) :
    (∀ endpoint, inFlight (attempts h endpoint) ≤ 1 ∧ supervisors h endpoint ≤ 1) ∧
    (∀ caller r' o, r.step chainLink (.cancel caller) = some (r', o) →
      o = [] ∧ r'.slots = r.slots ∧ r'.chains = r.chains) ∧
    (∀ e r' o, r.step chainLink e = some (r', o) → ∀ caller call endpoint id,
      .returned caller call endpoint (.ok id) ∈ o →
      (attempts h endpoint).getLast? = some (.finished (.ok id)) ∧
        (call = .tryGet → (r.chains[id]?).any chainLink.inSync = true)) ∧
    (∀ endpoint message, .attempt endpoint (.finished (.error (.permanent message))) ∈ h →
      ∀ es' r' h', (registryMachine chainLink).exec r es' = some (r', h') →
        attempts h' endpoint = [] ∧ EventMachine.Justified (Refuses endpoint message) h' ∧
          ∀ caller, r'.callers caller = some (.waiting endpoint) →
            (r'.step chainLink (.settle caller)).isSome = true) := by
  have i := Supervised.of_exec chainLink_final hrun
  refine ⟨fun endpoint => ?_, fun caller r' o hstep => ?_, ?_, ?_⟩
  · cases hslot : r.slots endpoint with
    | none =>
      obtain ⟨hattempts, hsupervisors⟩ := i.unsupervised endpoint hslot
      rw [hattempts, hsupervisors]
      exact ⟨by decide, by decide⟩
    | some slot =>
      obtain ⟨hreflects, hsupervisors⟩ := i.supervised endpoint slot hslot
      exact ⟨hreflects.inFlight_le_one, hsupervisors.le⟩
  · cases move_of_step hstep with
    | cancel hwaiting => exact ⟨rfl, rfl, rfl⟩
    | supervised hslot hstep' =>
      simp only [ChainRegistry.step] at hstep
      split at hstep
      · exact absurd (congrArg Prod.snd (Option.some.inj hstep)) (by simp)
      · exact absurd hstep (by simp)
  · intro e r' o hstep caller call endpoint id hreturned
    exact i.current chainLink_final (answers_of_move (move_of_step hstep) hreturned)
  · intro endpoint message hfailed es' r' h' hrun'
    cases hslot : r.slots endpoint with
    | none =>
      have hnone := (i.unsupervised endpoint hslot).1
      rw [← mem_attempts, hnone] at hfailed
      exact absurd hfailed List.not_mem_nil
    | some slot =>
      obtain rfl := (i.supervised endpoint slot hslot).1.failed_of_mem (mem_attempts.mpr hfailed)
      have g := GivenUp.of_exec hslot hrun'
      exact ⟨g.noAttempt, g.refuses, fun caller hwaiting => g.isSome_settle hwaiting⟩

/-- A light node that has just become ready. -/
def readyNode : Light.LightNode := ⟨.ready, .held, [], false, .running, .running⟩

/-- A prefetch and two callers share one connection; one of them stops waiting. -/
def firstConnection : List (Event Chain Light.Event) :=
  [.prefetch none, .get 0 none, .get 1 none, .cancel 1, .connected none (.ok ⟨some readyNode⟩)]

/-- The caller is given it.  The light node fails while another caller asks, and the next attempt
fails for good. -/
def sharedRun : List (Event Chain Light.Event) :=
  firstConnection ++ [.settle 0, .tryGet 2 none, .link 0 .serverPanicked, .check 2, .lost none,
    .connected none (.error (.transient "rpc down")), .slept none, .get 3 none,
    .connected none (.error (.permanent "wrong chain"))]

/-- Whoever waits, and whoever asks later. -/
def askedAgain : List (Event Chain Light.Event) := [.settle 3, .tryGet 4 none]

/-- The answers that callers were given. -/
def answers (h : List Observation) : List Observation :=
  h.filter fun | .returned _ _ _ _ => true | _ => false

theorem shared_connection_sharedRun :
    (∃ r h r' o, (registryMachine chainLink).exec .new firstConnection = some (r, h) ∧
      r.step chainLink (.settle 0) = some (r', o) ∧ .returned 0 .get none (.ok 0) ∈ o ∧
      (attempts h none).getLast? = some (.finished (.ok 0))) ∧
    ∃ r h, (registryMachine chainLink).exec .new sharedRun = some (r, h) ∧
      inFlight (attempts h none) ≤ 1 ∧ supervisors h none ≤ 1 ∧
      ∃ r' h', (registryMachine chainLink).exec r askedAgain = some (r', h') ∧
        attempts h' none = [] ∧
        answers h' = [.returned 3 .get none (.error (.permanent "wrong chain")),
          .returned 4 .tryGet none (.error (.permanent "wrong chain"))] ∧
        EventMachine.Justified (Refuses none "wrong chain") h' := by
  constructor
  · have hshown : ((registryMachine chainLink).exec .new firstConnection).bind (fun p =>
        (p.1.step chainLink (.settle 0)).map fun q => answers q.2) =
          some [.returned 0 .get none (.ok 0)] := by
      decide +kernel
    obtain ⟨⟨r, h⟩, hrun, hrest⟩ := Option.bind_eq_some_iff.mp hshown
    obtain ⟨⟨r', o⟩, hstep, hanswers⟩ := Option.map_eq_some_iff.mp hrest
    have hreturned : .returned 0 .get none (.ok 0) ∈ o := by
      refine (List.mem_filter.mp (?_ : _ ∈ answers o)).1
      rw [hanswers]
      exact List.mem_cons_self
    exact ⟨r, h, r', o, hrun, hstep, hreturned,
      ((shared_connection firstConnection r h hrun).2.2.1 _ r' o hstep 0 .get none 0 hreturned).1⟩
  · have hshown : ((registryMachine chainLink).exec .new sharedRun).bind (fun p =>
        ((registryMachine chainLink).exec p.1 askedAgain).map fun q =>
          ((attempts p.2 none).getLast?, answers q.2)) =
        some (some (.finished (.error (.permanent "wrong chain"))),
          [.returned 3 .get none (.error (.permanent "wrong chain")),
            .returned 4 .tryGet none (.error (.permanent "wrong chain"))]) := by
      decide +kernel
    obtain ⟨⟨r, h⟩, hrun, hrest⟩ := Option.bind_eq_some_iff.mp hshown
    obtain ⟨⟨r', h'⟩, hrun', heq⟩ := Option.map_eq_some_iff.mp hrest
    obtain ⟨hlast, hanswers⟩ := Prod.mk.inj heq
    have hall := shared_connection sharedRun r h hrun
    have hfailed : .attempt none (.finished (.error (.permanent "wrong chain"))) ∈ h :=
      mem_attempts.mp (List.mem_of_getLast? hlast)
    obtain ⟨hnone, hrefuses, -⟩ := hall.2.2.2 none _ hfailed askedAgain r' h' hrun'
    exact ⟨r, h, hrun, (hall.1 none).1, (hall.1 none).2, r', h', hrun', hnone, hanswers, hrefuses⟩

end Chain
end Robins
