import Robins.Basic

/-!
# The shared connection of an endpoint

One supervisor for each endpoint: it connects, publishes the connection, waits until it is lost,
and connects again; transient failures are repeated after a delay, a permanent one ends it.  What
it publishes is what callers find: `tryGet` never waits, and reports an endpoint without a
connection, or with one that has fallen behind, as an error.

Connecting, the loss of a connection and the end of a delay are up to the world, so a slot is a
small machine with those as its events.  It is used twice: alone by the reader of the `cps`
policy, for which all that matters is which connection is published, and once for each endpoint by
the registry, where callers wait for it.
-/

namespace Robins
namespace Chain

/-- First delay before a failed connection attempt is repeated. -/
def retryMin : Duration := .ofSecs 1

/-- Upper bound of the delay between connection attempts. -/
def retryMax : Duration := .ofSecs 30

/-- Failure to establish a chain connection. -/
inductive ChainError where
  | transient (reason : String)
  | permanent (reason : String)
  deriving DecidableEq, Repr

/-- The text of an error (its `Display`). -/
def ChainError.toText : ChainError → String
  | .transient reason => "transient chain error: " ++ reason
  | .permanent reason => "permanent chain error: " ++ reason

/-- Where the shared connection of one endpoint currently is. -/
inductive SlotState (C : Type) where
  | connecting
  | retrying (message : String)
  | ready (chain : C)
  /-- Nothing will be retried. -/
  | failed (message : String)
  deriving DecidableEq

/-- The connection, or why there is none. -/
def SlotState.resolve {C : Type} : SlotState C → Except ChainError C
  | .ready chain => .ok chain
  | .connecting => .error (.transient "chain is still connecting or synchronizing")
  | .retrying message => .error (.transient message)
  | .failed message => .error (.permanent message)

inductive Supervisor (C : Type) where
  | connecting (failures : UInt32)
  /-- The connection is in use until it is lost. -/
  | holding (chain : C)
  | backoff (failures : UInt32) (delay : Duration)
  | stopped
  deriving DecidableEq

/-- The supervised connection of one endpoint. -/
structure Slot (C : Type) where
  state : SlotState C
  supervisor : Supervisor C
  deriving DecidableEq

/-- A slot whose supervisor was just started. -/
def Slot.start {C : Type} : Slot C := ⟨.connecting, .connecting 0⟩

/-- What happens to a supervisor. -/
inductive Supervision (C : Type) where
  | connected (result : Except ChainError C)
  | lost
  | slept

/-- The delay after so many failures. -/
def retryDelay (failures : UInt32) : Duration :=
  min (retryMin * min (2 ^ failures.toNat) (2 ^ 32 - 1)) retryMax

/-- Keep one endpoint connected: connect, publish, and reconnect on loss. -/
def Slot.supervise {C : Type} (slot : Slot C) : Supervision C → Option (Slot C)
  | .connected result =>
    match slot.supervisor, result with
    | .connecting _, .ok chain => some ⟨.ready chain, .holding chain⟩
    | .connecting _, .error (.permanent message) => some ⟨.failed message, .stopped⟩
    | .connecting failures, .error (.transient message) =>
      some ⟨.retrying message,
        .backoff (if failures = UInt32.ofNat (2 ^ 32 - 1) then failures else failures + 1)
          (retryDelay failures)⟩
    | _, _ => none
  | .lost =>
    match slot.supervisor with
    | .holding _ => some .start
    | _ => none
  | .slept =>
    match slot.supervisor with
    | .backoff failures _ => some ⟨.connecting, .connecting failures⟩
    | _ => none

/-- The shared connection if it is ready right now, and in sync. -/
def Slot.tryGet {C : Type} (slot : Slot C) (inSync : Bool) : Except ChainError C :=
  match slot.state.resolve with
  | .error error => .error error
  | .ok chain =>
    if inSync then .ok chain else .error (.transient "chain is synchronizing again")

section

variable {C : Type} {slot : Slot C}

/-- Who gets a connection gets the one that is published. -/
theorem Slot.ready_of_tryGet {inSync : Bool} {chain : C} (h : slot.tryGet inSync = .ok chain) :
    slot.state = .ready chain := by
  unfold Slot.tryGet at h
  split at h
  · exact absurd h (by simp)
  · next chain' hresolve =>
    split_ifs at h
    obtain rfl := Except.ok.inj h
    cases hstate : slot.state with
    | ready chain'' =>
      rw [hstate] at hresolve
      rw [Except.ok.inj hresolve]
    | _ =>
      rw [hstate] at hresolve
      exact absurd hresolve (by simp [SlotState.resolve])

/-- Only a successful attempt publishes a connection. -/
theorem Slot.connected_of_ready {slot' : Slot C} {e : Supervision C} {chain : C}
    (h : slot.supervise e = some slot') (hready : slot'.state = .ready chain) :
    e = .connected (.ok chain) := by
  cases e with
  | connected result =>
    simp only [Slot.supervise] at h
    split at h
    · obtain rfl := Option.some.inj h
      rw [SlotState.ready.inj hready]
    · rw [← Option.some.inj h] at hready
      exact absurd hready (by simp)
    · rw [← Option.some.inj h] at hready
      exact absurd hready (by simp)
    · exact absurd h (by simp)
  | lost =>
    simp only [Slot.supervise] at h
    split at h
    · obtain rfl := Option.some.inj h
      exact absurd hready (by simp [Slot.start])
    · exact absurd h (by simp)
  | slept =>
    simp only [Slot.supervise] at h
    split at h
    · obtain rfl := Option.some.inj h
      exact absurd hready (by simp)
    · exact absurd h (by simp)

end

end Chain
end Robins
