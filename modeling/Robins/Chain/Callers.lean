import Mathlib.Logic.Function.Basic
import Robins.Chain.Registry
import Robins.Light.Node

/-!
# The callers of the chain registry

The registry keeps one slot for each endpoint, whose supervisor it starts when the endpoint is
first asked for.  A caller of `get` waits until the slot is not connecting, and may stop waiting at
any time; a caller of `try_get` reads the slot, and then asks the connection it found whether it is
in sync.  Between the two the supervisor may go on, so what keeps the answer current is the
connection itself: one that is lost is never in sync again.

## Connections

`Link` is what the registry needs to know of a connection: what may happen to it, when it is lost,
and when it is in sync.  `Link.Final` is the property just named.  For the embedded light client it
holds because a terminal status is never left (`chainLink_final`); an external endpoint is
reconnected by its own library and is never lost at all.

## The machine

Here all of it runs at once: callers of any endpoint, one supervisor for each slot, and the
connections with whatever happens to them.  Connections are shared by their number, so a caller
that holds one and a slot that has published another are told apart.  `Move` lists the steps by
event, and `Answers` those of them that answer a caller, with the answer; what callers may rely on
is proved from these in `Chain.Shared`.
-/

namespace Robins
namespace Chain

/-- An RPC endpoint; none is the embedded light client. -/
abbrev Endpoint := Option String

/-! ## Connections -/

/-- A live connection the registry can supervise: what may happen to it, whether `lost`
resolves, and whether it is in sync. -/
structure Link (C E : Type) where
  step : C → E → Option C
  lost : C → Bool
  inSync : C → Bool

/-- What is lost stays lost, and is not in sync. -/
structure Link.Final {C E : Type} (link : Link C E) : Prop where
  lost_step {chain chain' : C} {e : E} (hstep : link.step chain e = some chain')
    (hlost : link.lost chain = true) : link.lost chain' = true
  not_inSync {chain : C} (hlost : link.lost chain = true) : link.inSync chain = false

set_option linter.dupNamespace false in
/-- A connected client, by the embedded light node that serves it, if there is one. -/
structure Chain where
  light : Option Light.LightNode
  deriving DecidableEq, Repr

/-- The connections of the registry.  An external endpoint is reconnected by the RPC client
itself and cannot fall behind. -/
def chainLink : Link Chain Light.Event where
  step chain e :=
    chain.light.bind fun node => (node.step e).map fun p => ⟨some p.1⟩
  lost chain :=
    match chain.light with
    | some light => (Light.wait light.status).isSome
    | none => false
  inSync chain :=
    match chain.light with
    | some light => light.status.isReady
    | none => true

theorem chainLink_lost_iff {chain : Chain} :
    chainLink.lost chain = true ↔
      ∃ node, chain.light = some node ∧ node.status.isTerminal = true := by
  obtain ⟨light⟩ := chain
  cases light with
  | none => simp [chainLink]
  | some node =>
    simp only [chainLink, Option.some.injEq, exists_eq_left', Light.wait]
    cases node.status.isTerminal <;> simp

theorem chainLink_final : chainLink.Final where
  lost_step {chain chain' e} hstep hlost := by
    obtain ⟨node, hlight, hterminal⟩ := chainLink_lost_iff.mp hlost
    simp only [chainLink, hlight, Option.bind_some, Option.map_eq_some_iff] at hstep
    obtain ⟨⟨node', o⟩, hnode, rfl⟩ := hstep
    have hsame := Light.status_step_of_isTerminal (Light.LightNode.move_of_step hnode) hterminal
    exact chainLink_lost_iff.mpr ⟨node', rfl, by rw [hsame, hterminal]⟩
  not_inSync {chain} hlost := by
    obtain ⟨node, hlight, hterminal⟩ := chainLink_lost_iff.mp hlost
    simp only [chainLink, hlight]
    cases hstatus : node.status with
    | ready =>
      rw [hstatus] at hterminal
      exact absurd hterminal (by simp [Light.LightStatus.isTerminal])
    | _ => rfl

/-! ## The registry -/

/-- How a caller asks. -/
inductive Call where
  | get
  | tryGet
  deriving DecidableEq, Repr

/-- A caller that was not answered yet. -/
inductive Caller where
  /-- `get` waits for the slot to settle. -/
  | waiting (endpoint : Endpoint)
  /-- `try_get` found this connection, and asks whether it is in sync. -/
  | checking (endpoint : Endpoint) (chain : ℕ)
  deriving DecidableEq, Repr

/-- Supervised connections, one per endpoint, with who waits for them.  Connections are
shared by their number. -/
structure ChainRegistry (C : Type) where
  slots : Endpoint → Option (Slot ℕ)
  chains : List C
  callers : ℕ → Option Caller

def ChainRegistry.new {C : Type} : ChainRegistry C := ⟨fun _ => none, [], fun _ => none⟩

inductive Event (C E : Type) where
  | prefetch (endpoint : Endpoint)
  | get (caller : ℕ) (endpoint : Endpoint)
  /-- A caller of `get` finds the slot settled. -/
  | settle (caller : ℕ)
  | tryGet (caller : ℕ) (endpoint : Endpoint)
  /-- A caller of `try_get` asks whether its connection is in sync. -/
  | check (caller : ℕ)
  | cancel (caller : ℕ)
  | connected (endpoint : Endpoint) (result : Except ChainError C)
  | lost (endpoint : Endpoint)
  | slept (endpoint : Endpoint)
  /-- Something happens to a connection. -/
  | link (chain : ℕ) (e : E)

/-- A connection attempt begins or ends. -/
inductive Attempt where
  | started
  | finished (result : Except ChainError ℕ)
  deriving DecidableEq

inductive Observation where
  | spawned (endpoint : Endpoint)
  | attempt (endpoint : Endpoint) (attempt : Attempt)
  | called (caller : ℕ) (call : Call) (endpoint : Endpoint)
  | returned (caller : ℕ) (call : Call) (endpoint : Endpoint) (result : Except ChainError ℕ)
  deriving DecidableEq

/-- What the supervisor does to its attempts: one is finished, or the next one begins. -/
def Supervision.attempt : Supervision ℕ → Attempt
  | .connected result => .finished result
  | .lost | .slept => .started

/-- The end of `try_get`: a connection that has fallen behind is an error. -/
def checkInSync {C : Type} (inSync : Bool) (chain : C) : Except ChainError C :=
  if inSync then .ok chain else .error (.transient "chain is synchronizing again")

theorem SlotState.ready_of_resolve {C : Type} {state : SlotState C} {chain : C}
    (h : state.resolve = .ok chain) : state = .ready chain := by
  cases state with
  | ready chain' => rw [Except.ok.inj h]
  | _ => exact absurd h (by simp [SlotState.resolve])

namespace ChainRegistry

variable {C E : Type}

/-- The slot of an endpoint, starting its supervisor on first use. -/
def slot (r : ChainRegistry C) (endpoint : Endpoint) :
    ChainRegistry C × Slot ℕ × List Observation :=
  match r.slots endpoint with
  | some slot => (r, slot, [])
  | none =>
    ({ r with slots := Function.update r.slots endpoint (some .start) }, .start,
      [.spawned endpoint, .attempt endpoint .started])

/-- The supervisor of an endpoint goes on. -/
def supervise (r : ChainRegistry C) (endpoint : Endpoint) (e : Supervision ℕ) :
    Option (ChainRegistry C × List Observation) :=
  (r.slots endpoint).bind fun slot => (slot.supervise e).map fun slot' =>
    ({ r with slots := Function.update r.slots endpoint (some slot') },
      [.attempt endpoint e.attempt])

def answer (r : ChainRegistry C) (caller : ℕ) (call : Call) (endpoint : Endpoint)
    (result : Except ChainError ℕ) : ChainRegistry C × List Observation :=
  ({ r with callers := Function.update r.callers caller none },
    [.returned caller call endpoint result])

/-- A caller has to wait. -/
def park (r : ChainRegistry C) (caller : ℕ) (state : Caller) : ChainRegistry C :=
  { r with callers := Function.update r.callers caller (some state) }

def step (link : Link C E) (r : ChainRegistry C) :
    Event C E → Option (ChainRegistry C × List Observation)
  | .prefetch endpoint => some ((r.slot endpoint).1, (r.slot endpoint).2.2)
  | .get caller endpoint =>
    if r.callers caller = none then
      some ((r.slot endpoint).1.park caller (.waiting endpoint),
        (r.slot endpoint).2.2 ++ [.called caller .get endpoint])
    else none
  | .settle caller =>
    match r.callers caller with
    | some (.waiting endpoint) =>
      match r.slots endpoint with
      | some slot =>
        if slot.state = .connecting then none
        else some (r.answer caller .get endpoint slot.state.resolve)
      | none => none
    | _ => none
  | .tryGet caller endpoint =>
    if r.callers caller = none then
      let shown := (r.slot endpoint).2.2 ++ [.called caller .tryGet endpoint]
      match (r.slot endpoint).2.1.state.resolve with
      | .ok chain => some ((r.slot endpoint).1.park caller (.checking endpoint chain), shown)
      | .error error =>
        let answered := (r.slot endpoint).1.answer caller .tryGet endpoint (.error error)
        some (answered.1, shown ++ answered.2)
    else none
  | .check caller =>
    match r.callers caller with
    | some (.checking endpoint id) =>
      (r.chains[id]?).map fun chain =>
        r.answer caller .tryGet endpoint (checkInSync (link.inSync chain) id)
    | _ => none
  | .cancel caller =>
    match r.callers caller with
    | some (.waiting _) =>
      some ({ r with callers := Function.update r.callers caller none }, [])
    | _ => none
  | .connected endpoint (.ok chain) =>
    { r with chains := r.chains ++ [chain] }.supervise endpoint (.connected (.ok r.chains.length))
  | .connected endpoint (.error error) =>
    r.supervise endpoint (.connected (.error error))
  | .lost endpoint =>
    match r.slots endpoint with
    | some ⟨_, .holding id⟩ =>
      if (r.chains[id]?).any link.lost then r.supervise endpoint .lost else none
    | _ => none
  | .slept endpoint => r.supervise endpoint .slept
  | .link id e =>
    (r.chains[id]?).bind fun chain => (link.step chain e).map fun chain' =>
      ({ r with chains := r.chains.set id chain' }, [])

end ChainRegistry

def registryMachine {C E : Type} (link : Link C E) :
    EventMachine (ChainRegistry C) (Event C E) Observation := ⟨ChainRegistry.step link⟩

/-! ## Steps -/

/-- What a step does, by event. -/
inductive Move {C E : Type} (link : Link C E) (r : ChainRegistry C) :
    Event C E → ChainRegistry C → List Observation → Prop
  | prefetch (endpoint : Endpoint) :
    Move link r (.prefetch endpoint) (r.slot endpoint).1 (r.slot endpoint).2.2
  | get {caller : ℕ} (hnew : r.callers caller = none) (endpoint : Endpoint) :
    Move link r (.get caller endpoint) ((r.slot endpoint).1.park caller (.waiting endpoint))
      ((r.slot endpoint).2.2 ++ [.called caller .get endpoint])
  | settle {caller : ℕ} {endpoint : Endpoint} {slot : Slot ℕ}
    (hwaiting : r.callers caller = some (.waiting endpoint))
    (hslot : r.slots endpoint = some slot) :
    Move link r (.settle caller) (r.answer caller .get endpoint slot.state.resolve).1
      [.returned caller .get endpoint slot.state.resolve]
  | found {caller : ℕ} {endpoint : Endpoint} {id : ℕ} (hnew : r.callers caller = none)
    (hresolve : (r.slot endpoint).2.1.state.resolve = .ok id) :
    Move link r (.tryGet caller endpoint)
      ((r.slot endpoint).1.park caller (.checking endpoint id))
      ((r.slot endpoint).2.2 ++ [.called caller .tryGet endpoint])
  | refuse {caller : ℕ} {endpoint : Endpoint} {error : ChainError}
    (hnew : r.callers caller = none)
    (herror : (r.slot endpoint).2.1.state.resolve = .error error) :
    Move link r (.tryGet caller endpoint)
      ((r.slot endpoint).1.answer caller .tryGet endpoint (.error error)).1
      ((r.slot endpoint).2.2 ++
        [.called caller .tryGet endpoint, .returned caller .tryGet endpoint (.error error)])
  | check {caller : ℕ} {endpoint : Endpoint} {id : ℕ} {chain : C}
    (hchecking : r.callers caller = some (.checking endpoint id))
    (hchain : r.chains[id]? = some chain) :
    Move link r (.check caller)
      (r.answer caller .tryGet endpoint (checkInSync (link.inSync chain) id)).1
      [.returned caller .tryGet endpoint (checkInSync (link.inSync chain) id)]
  | cancel {caller : ℕ} {endpoint : Endpoint}
    (hwaiting : r.callers caller = some (.waiting endpoint)) :
    Move link r (.cancel caller)
      { r with callers := Function.update r.callers caller none } []
  | connected {endpoint : Endpoint} (chain : C) {slot slot' : Slot ℕ}
    (hslot : r.slots endpoint = some slot)
    (hstep : slot.supervise (.connected (.ok r.chains.length)) = some slot') :
    Move link r (.connected endpoint (.ok chain))
      { r with
        chains := r.chains ++ [chain]
        slots := Function.update r.slots endpoint (some slot') }
      [.attempt endpoint (.finished (.ok r.chains.length))]
  | supervised {endpoint : Endpoint} {e : Event C E} {supervision : Supervision ℕ}
    {slot slot' : Slot ℕ} (hslot : r.slots endpoint = some slot)
    (hstep : slot.supervise supervision = some slot')
    (hconnected : ∀ id, supervision ≠ .connected (.ok id))
    (hlost : ∀ id, slot.supervisor = .holding id → (r.chains[id]?).any link.lost = true) :
    Move link r e { r with slots := Function.update r.slots endpoint (some slot') }
      [.attempt endpoint supervision.attempt]
  | link {id : ℕ} {e : E} {chain chain' : C} (hchain : r.chains[id]? = some chain)
    (hstep : link.step chain e = some chain') :
    Move link r (.link id e) { r with chains := r.chains.set id chain' } []

section

variable {C E : Type} {link : Link C E} {r r' : ChainRegistry C} {e : Event C E}
  {o : List Observation}

theorem ChainRegistry.supervise_eq_some {endpoint : Endpoint} {e : Supervision ℕ}
    (hstep : r.supervise endpoint e = some (r', o)) :
    ∃ slot slot', r.slots endpoint = some slot ∧ slot.supervise e = some slot' ∧
      r' = { r with slots := Function.update r.slots endpoint (some slot') } ∧
      o = [.attempt endpoint e.attempt] := by
  obtain ⟨slot, hslot, hstep⟩ := Option.bind_eq_some_iff.mp hstep
  obtain ⟨slot', hslot', heq⟩ := Option.map_eq_some_iff.mp hstep
  obtain ⟨rfl, rfl⟩ := Prod.mk.inj heq
  exact ⟨slot, slot', hslot, hslot', rfl, rfl⟩

/-- A supervisor that holds a connection only notices that it is lost. -/
theorem Slot.lost_of_holding {slot slot' : Slot ℕ} {e : Supervision ℕ} {id : ℕ}
    (hstep : slot.supervise e = some slot') (hholding : slot.supervisor = .holding id) :
    e = .lost := by
  cases e with
  | lost => rfl
  | connected _ | slept => exact absurd hstep (by simp [Slot.supervise, hholding])

theorem move_of_step (hstep : r.step link e = some (r', o)) : Move link r e r' o := by
  cases e with
  | prefetch endpoint =>
    obtain ⟨rfl, rfl⟩ := Prod.mk.inj (Option.some.inj hstep)
    exact .prefetch endpoint
  | get caller endpoint =>
    simp only [ChainRegistry.step] at hstep
    split_ifs at hstep with hnew
    obtain ⟨rfl, rfl⟩ := Prod.mk.inj (Option.some.inj hstep)
    exact .get hnew endpoint
  | settle caller =>
    simp only [ChainRegistry.step] at hstep
    split at hstep
    · next endpoint hwaiting =>
      split at hstep
      · next slot hslot =>
        split_ifs at hstep
        obtain ⟨rfl, rfl⟩ := Prod.mk.inj (Option.some.inj hstep)
        exact .settle hwaiting hslot
      · exact absurd hstep (by simp)
    · exact absurd hstep (by simp)
  | tryGet caller endpoint =>
    simp only [ChainRegistry.step] at hstep
    split_ifs at hstep with hnew
    split at hstep
    · next id hresolve =>
      obtain ⟨rfl, rfl⟩ := Prod.mk.inj (Option.some.inj hstep)
      exact .found hnew hresolve
    · next error herror =>
      obtain ⟨rfl, rfl⟩ := Prod.mk.inj (Option.some.inj hstep)
      rw [List.append_assoc]
      exact .refuse hnew herror
  | check caller =>
    simp only [ChainRegistry.step] at hstep
    split at hstep
    · next endpoint id hchecking =>
      obtain ⟨chain, hchain, heq⟩ := Option.map_eq_some_iff.mp hstep
      obtain ⟨rfl, rfl⟩ := Prod.mk.inj heq
      exact .check hchecking hchain
    · exact absurd hstep (by simp)
  | cancel caller =>
    simp only [ChainRegistry.step] at hstep
    split at hstep
    · next endpoint hwaiting =>
      obtain ⟨rfl, rfl⟩ := Prod.mk.inj (Option.some.inj hstep)
      exact .cancel hwaiting
    · exact absurd hstep (by simp)
  | connected endpoint result =>
    cases result with
    | ok chain =>
      obtain ⟨slot, slot', hslot, hslot', rfl, rfl⟩ := ChainRegistry.supervise_eq_some hstep
      exact .connected chain hslot hslot'
    | error error =>
      obtain ⟨slot, slot', hslot, hslot', rfl, rfl⟩ := ChainRegistry.supervise_eq_some hstep
      refine .supervised hslot hslot' (by simp) fun id hholding => ?_
      exact absurd (Slot.lost_of_holding hslot' hholding) (by simp)
  | lost endpoint =>
    simp only [ChainRegistry.step] at hstep
    split at hstep
    · next state id hholding =>
      split_ifs at hstep with hany
      obtain ⟨slot, slot', hslot, hslot', rfl, rfl⟩ := ChainRegistry.supervise_eq_some hstep
      refine .supervised hslot hslot' (by simp) fun id' hholding' => ?_
      obtain rfl := Option.some.inj (hholding.symm.trans hslot)
      obtain rfl := Supervisor.holding.inj hholding'
      exact hany
    · exact absurd hstep (by simp)
  | slept endpoint =>
    obtain ⟨slot, slot', hslot, hslot', rfl, rfl⟩ := ChainRegistry.supervise_eq_some hstep
    refine .supervised hslot hslot' (by simp) fun id hholding => ?_
    exact absurd (Slot.lost_of_holding hslot' hholding) (by simp)
  | link id e =>
    obtain ⟨chain, hchain, hstep⟩ := Option.bind_eq_some_iff.mp hstep
    obtain ⟨chain', hchain', heq⟩ := Option.map_eq_some_iff.mp hstep
    obtain ⟨rfl, rfl⟩ := Prod.mk.inj heq
    exact .link hchain hchain'

end

/-! ## Answers -/

/-- An event that answers a caller, and the answer. -/
inductive Answers {C E : Type} (link : Link C E) (r : ChainRegistry C) :
    Event C E → ℕ → Call → Endpoint → Except ChainError ℕ → Prop
  | settle {caller : ℕ} {endpoint : Endpoint} {slot : Slot ℕ}
    (hwaiting : r.callers caller = some (.waiting endpoint))
    (hslot : r.slots endpoint = some slot) :
    Answers link r (.settle caller) caller .get endpoint slot.state.resolve
  | check {caller : ℕ} {endpoint : Endpoint} {id : ℕ} {chain : C}
    (hchecking : r.callers caller = some (.checking endpoint id))
    (hchain : r.chains[id]? = some chain) :
    Answers link r (.check caller) caller .tryGet endpoint (checkInSync (link.inSync chain) id)
  | refuse {caller : ℕ} {endpoint : Endpoint} {error : ChainError}
    (hnew : r.callers caller = none)
    (herror : (r.slot endpoint).2.1.state.resolve = .error error) :
    Answers link r (.tryGet caller endpoint) caller .tryGet endpoint (.error error)

section

variable {C E : Type} {link : Link C E} {r r' : ChainRegistry C} {e : Event C E}
  {o : List Observation} {caller : ℕ} {call : Call} {endpoint : Endpoint}

/-- Starting a supervisor neither asks nor answers. -/
theorem returned_notMem_slot (r : ChainRegistry C) (endpoint' : Endpoint)
    {result : Except ChainError ℕ} :
    .returned caller call endpoint result ∉ (r.slot endpoint').2.2 := by
  unfold ChainRegistry.slot
  split <;> simp

theorem called_notMem_slot (r : ChainRegistry C) (endpoint' : Endpoint) :
    .called caller call endpoint ∉ (r.slot endpoint').2.2 := by
  unfold ChainRegistry.slot
  split <;> simp

theorem answers_of_move (hmove : Move link r e r' o) {result : Except ChainError ℕ}
    (hreturned : .returned caller call endpoint result ∈ o) :
    Answers link r e caller call endpoint result := by
  cases hmove with
  | prefetch endpoint' => exact absurd hreturned (returned_notMem_slot r endpoint')
  | get hnew endpoint' | found hnew =>
    rcases List.mem_append.mp hreturned with hmem | hmem
    · exact absurd hmem (returned_notMem_slot r _)
    · exact absurd hmem (by simp)
  | settle hwaiting hslot =>
    simp only [List.mem_singleton, Observation.returned.injEq] at hreturned
    obtain ⟨rfl, rfl, rfl, rfl⟩ := hreturned
    exact .settle hwaiting hslot
  | refuse hnew herror =>
    rcases List.mem_append.mp hreturned with hmem | hmem
    · exact absurd hmem (returned_notMem_slot r _)
    · simp only [List.mem_cons, reduceCtorEq, Observation.returned.injEq, List.not_mem_nil,
        or_false, false_or] at hmem
      obtain ⟨rfl, rfl, rfl, rfl⟩ := hmem
      exact .refuse hnew herror
  | check hchecking hchain =>
    simp only [List.mem_singleton, Observation.returned.injEq] at hreturned
    obtain ⟨rfl, rfl, rfl, rfl⟩ := hreturned
    exact .check hchecking hchain
  | cancel | link => exact absurd hreturned (by simp)
  | connected | supervised => exact absurd hreturned (by simp)

/-- Who calls is not waiting for an answer. -/
theorem callers_of_called (hmove : Move link r e r' o)
    (hcalled : .called caller call endpoint ∈ o) : r.callers caller = none := by
  cases hmove with
  | prefetch endpoint' => exact absurd hcalled (called_notMem_slot r endpoint')
  | get hnew endpoint' | found hnew | refuse hnew =>
    rcases List.mem_append.mp hcalled with hmem | hmem
    · exact absurd hmem (called_notMem_slot r _)
    · obtain ⟨rfl, -⟩ : caller = _ ∧ _ := by simpa using hmem
      exact hnew
  | settle | check | cancel | connected | supervised | link => exact absurd hcalled (by simp)

/-- A caller that holds a connection did so before, or has just found it in the slot. -/
theorem checking_of_move (hmove : Move link r e r' o) {id : ℕ}
    (hchecking : r'.callers caller = some (.checking endpoint id)) :
    r.callers caller = some (.checking endpoint id) ∨
      (r.slot endpoint).2.1.state.resolve = .ok id := by
  have hslot : ∀ endpoint', (r.slot endpoint').1.callers = r.callers := by
    intro endpoint'
    unfold ChainRegistry.slot
    split <;> rfl
  cases hmove with
  | prefetch endpoint' =>
    rw [hslot] at hchecking
    exact .inl hchecking
  | @get caller' hnew endpoint' =>
    simp only [ChainRegistry.park, hslot, Function.update_apply] at hchecking
    split_ifs at hchecking
    · exact absurd hchecking (by simp)
    · exact .inl hchecking
  | @found caller' endpoint' id' hnew hresolve =>
    simp only [ChainRegistry.park, hslot, Function.update_apply] at hchecking
    split_ifs at hchecking
    · obtain ⟨rfl, rfl⟩ := Caller.checking.inj (Option.some.inj hchecking)
      exact .inr hresolve
    · exact .inl hchecking
  | refuse | settle | check | cancel =>
    simp only [ChainRegistry.answer, hslot, Function.update_apply] at hchecking
    split_ifs at hchecking
    exact .inl hchecking
  | connected | supervised | link => exact .inl hchecking

end

end Chain
end Robins
