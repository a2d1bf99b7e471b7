import Mathlib.Logic.Function.Basic
import Robins.Basic
import Robins.Lib.Semaphore
import Robins.Lib.Unwinding
import Robins.Lib.Utf8

/-!
# The endpoint of the embedded light node

The server of a light node takes connections while there is room, and passes messages between each
client and a frontend of its own.  It waits for nobody: a client that comes when there is no room
is turned away, and a request that the frontend does not take is answered at once.

The events are those of the world: who connects, what clients send, what the frontends take and
say, what can be written, and when something fails, panics or is aborted.

## One connection

A connection is a small machine of its own (`connectionStep`), and `Carried` says what it does:
all that arose for the client, be it from the frontend or as an answer to a request that was not
taken, is delivered in the order in which it arose, but for the text that is being written.

## The server

* `Keeps` relates the state with the history: who is inside, how many slots are taken, and where
  each connection has come to.  The slots are those of a semaphore.
* Two runs that agree on what concerns one client look alike to that client (`same_unwinds`); so
  no client can disturb another, except by taking a slot.
* After a shutdown the server gets to its end whatever the clients and the frontends do (`Ends`):
  this is a statement about what can still happen from a state, not about a run.

`Serves` has the three together.
-/

namespace Robins
namespace Light

/-! ## The answer to a request that is not taken -/

/-- A JSON value, with numbers as the crate has them. -/
inductive JsonValue (Number : Type) where
  | null
  | bool (b : Bool)
  | number (n : Number)
  | string (text : String)
  | array (values : List (JsonValue Number))
  | object (fields : List (String × JsonValue Number))

/-- `Value::get` of a field. -/
def JsonValue.get {Number : Type} (key : String) : JsonValue Number → Option (JsonValue Number)
  | .object fields => fields.lookup key
  | .null | .bool _ | .number _ | .string _ | .array _ => none

/-- What the crate reads and writes. -/
structure SerdeJson where
  Number : Type
  ofInt : ℤ → Number
  fromStr : String → Option (JsonValue Number)
  toText : JsonValue Number → String

def busyCode : ℤ := -32000

/-- The error that answers a request which was rejected because the queue is full. -/
def busyReply (json : SerdeJson) (request : String) : String :=
  let id := ((json.fromStr request).bind (JsonValue.get "id")).getD .null
  json.toText (.object [("jsonrpc", .string "2.0"), ("id", id),
    ("error", .object [("code", .number (json.ofInt busyCode)),
      ("message", .string "Too many pending requests")])])

/-! ## State -/

/-- A connection, from the handshake on. -/
inductive Connection where
  | handshake
  /-- A frontend is being opened for it. -/
  | opening
  /-- It waits for the client, for the frontend and for the end. -/
  | relaying
  /-- A text is being written to the client. -/
  | writing (text : String)
  /-- The closing frame is being written. -/
  | leaving
  deriving DecidableEq

/-- Where the loop of the server is. -/
inductive Serving where
  | accepting
  /-- It waits, since the listener failed. -/
  | pausing
  /-- It left, and waits for the connections that it aborted. -/
  | closing
  | ended
  deriving DecidableEq

structure RpcServer where
  serving : Serving
  shutdown : Bool
  slots : Semaphore ℕ
  /-- How many have connected so far. -/
  arrived : ℕ
  connections : ℕ → Option Connection

/-- `serve`, with so many slots. -/
def RpcServer.start (maxConnections : ℕ) : RpcServer :=
  ⟨.accepting, false, .new maxConnections, 0, fun _ => none⟩

/-! ## A connection -/

/-- What a client sends. -/
inductive Incoming where
  | text (request : String)
  | binary (bytes : Bytes)
  /-- A ping, a pong or a frame. -/
  | other
  /-- The closing frame, a failure, or the end of the stream. -/
  | closed

/-- The request in a message of the client. -/
def Incoming.request : Incoming → Option String
  | .text request => some request
  | .binary bytes => Utf8.decode bytes
  | .other | .closed => none

/-- What the world does to a connection. -/
inductive ConnectionEvent where
  | panicked
  /-- The handshake ends, in time or not. -/
  | shaken (ok : Bool)
  | opened (ok : Bool)
  /-- The client sends something; the frontend takes it if it has room. -/
  | incoming (message : Incoming) (taken : Bool)
  /-- The frontend says something, or is gone. -/
  | response (text : Option String)
  | written (ok : Bool)
  /-- The shutdown is noticed. -/
  | leave

/-- What passes through a connection. -/
inductive Exchange where
  | asked (request : String)
  | refused (request : String)
  /-- The frontend said something. -/
  | answered (text : String)
  | delivered (text : String)
  deriving DecidableEq

/-- `connection` and `relay`: the connection that is left, if any, and what passed through it.
`reply` answers a request that the frontend did not take. -/
def connectionStep (reply : String → String) (shutdown : Bool) :
    Connection → ConnectionEvent → Option (Option Connection × List Exchange)
  | _, .panicked => some (none, [])
  | .handshake, .shaken ok => some (if ok then some .opening else none, [])
  | .opening, .opened ok => some (if ok then some .relaying else none, [])
  | .relaying, .incoming .closed _ => some (none, [])
  | .relaying, .incoming message taken =>
    match message.request with
    | none => some (some .relaying, [])
    | some request =>
      if taken then some (some .relaying, [.asked request])
      else some (some (.writing (reply request)), [.refused request])
  | .relaying, .response none => some (none, [])
  | .relaying, .response (some text) => some (some (.writing text), [.answered text])
  | .relaying, .leave => if shutdown then some (some .leaving, []) else none
  | .writing text, .written ok =>
    if ok then some (some .relaying, [.delivered text]) else some (none, [])
  | .leaving, .written _ => some (none, [])
  | _, _ => none

/-! ## The server -/

/-- What the world contributes to a step. -/
inductive ServerEvent where
  | accept
  | acceptFailed
  /-- The pause is over. -/
  | slept
  | requestShutdown
  /-- The loop notices the shutdown. -/
  | stop
  /-- A connection is seen to have been aborted. -/
  | aborted (client : ℕ)
  /-- All of them have. -/
  | drained
  | connection (client : ℕ) (e : ConnectionEvent)

inductive ServerObservation where
  | accepted (client : ℕ)
  | turnedAway (client : ℕ)
  | exchanged (client : ℕ) (x : Exchange)
  | ended (client : ℕ)
  deriving DecidableEq

def ServerObservation.client : ServerObservation → ℕ
  | .accepted client | .turnedAway client | .exchanged client _ | .ended client => client

/-- A connection goes on, or is over: then its frontend is dropped, and its slot after that. -/
def RpcServer.goOn (s : RpcServer) (client : ℕ) : Option Connection × List Exchange →
    RpcServer × List ServerObservation
  | (some c, xs) =>
    ({ s with connections := Function.update s.connections client (some c) },
      xs.map (.exchanged client))
  | (none, xs) =>
    ({ s with
        connections := Function.update s.connections client none
        slots := s.slots.release client },
      xs.map (.exchanged client) ++ [.ended client])

def serverStep (reply : String → String) (s : RpcServer) :
    ServerEvent → Option (RpcServer × List ServerObservation)
  | .accept =>
    if s.serving = .accepting then
      match s.slots.tryAcquire s.arrived with
      | some slots =>
        some ({ s with
            slots := slots
            arrived := s.arrived + 1
            connections := Function.update s.connections s.arrived (some .handshake) },
          [.accepted s.arrived])
      | none => some ({ s with arrived := s.arrived + 1 }, [.turnedAway s.arrived])
    else none
  | .acceptFailed =>
    if s.serving = .accepting then some ({ s with serving := .pausing }, []) else none
  | .slept => if s.serving = .pausing then some ({ s with serving := .accepting }, []) else none
  | .requestShutdown => some ({ s with shutdown := true }, [])
  | .stop =>
    if s.serving = .accepting ∧ s.shutdown then some ({ s with serving := .closing }, []) else none
  | .aborted client =>
    if s.serving = .closing ∧ (s.connections client).isSome then some (s.goOn client (none, []))
    else none
  | .drained =>
    if s.serving = .closing ∧ ∀ client < s.arrived, s.connections client = none then
      some ({ s with serving := .ended }, [])
    else none
  | .connection client e =>
    (s.connections client).bind fun c =>
      (connectionStep reply s.shutdown c e).map (s.goOn client)

/-- The server and its connections. -/
def rpcServer (reply : String → String) :
    EventMachine RpcServer ServerEvent ServerObservation := ⟨serverStep reply⟩

/-! ## What passes through a connection

Two readings of the same exchanges: what arose for the client, and what was delivered to it.  A
request that was not taken gives rise to its answer on the spot, so both kinds of text stand in
one order, and a connection that carries on is at most one text behind. -/

section

variable {reply : String → String} {shutdown : Bool} {c : Connection}
  {c' : Option Connection} {xs o : List Exchange} {e : ConnectionEvent}

/-- What is to be written to the client, in the order in which it arose. -/
def arisen (reply : String → String) (xs : List Exchange) : List String :=
  xs.filterMap fun
    | .refused request => some (reply request)
    | .answered text => some text
    | .asked _ | .delivered _ => none

def deliveries (xs : List Exchange) : List String :=
  xs.filterMap fun
    | .delivered text => some text
    | _ => none

/-- The requests, taken or not. -/
def requests (xs : List Exchange) : List String :=
  xs.filterMap fun
    | .asked request | .refused request => some request
    | _ => none

def ConnectionEvent.request : ConnectionEvent → Option String
  | .incoming message _ => message.request
  | _ => none

theorem arisen_append (xs ys : List Exchange) :
    arisen reply (xs ++ ys) = arisen reply xs ++ arisen reply ys :=
  List.filterMap_append

theorem deliveries_append (xs ys : List Exchange) :
    deliveries (xs ++ ys) = deliveries xs ++ deliveries ys := List.filterMap_append

theorem requests_append (xs ys : List Exchange) :
    requests (xs ++ ys) = requests xs ++ requests ys := List.filterMap_append

/-- All that arose was delivered, but for the text being written; and if the connection is over,
but for one text at most. -/
def Carried (reply : String → String) (xs : List Exchange) : Option Connection → Prop
  | some (.writing text) => arisen reply xs = deliveries xs ++ [text]
  | some _ => arisen reply xs = deliveries xs
  | none => ∃ lost, lost.length ≤ 1 ∧ arisen reply xs = deliveries xs ++ lost

theorem Carried.closed (h : Carried reply xs (some c)) : Carried reply xs none := by
  cases c with
  | writing text => exact ⟨[text], le_rfl, h⟩
  | handshake | opening | relaying | leaving =>
    exact ⟨[], Nat.zero_le _, by rw [h, List.append_nil]⟩

inductive ConnectionMove (reply : String → String) :
    Connection → Option Connection → List Exchange → Prop where
  | close {c : Connection} : ConnectionMove reply c none []
  | proceed {c c' : Connection} (h : ∀ text, c ≠ .writing text ∧ c' ≠ .writing text) :
      ConnectionMove reply c (some c') []
  | ask (request : String) :
      ConnectionMove reply .relaying (some .relaying) [.asked request]
  | refuse (request : String) :
      ConnectionMove reply .relaying (some (.writing (reply request))) [.refused request]
  | answer (text : String) :
      ConnectionMove reply .relaying (some (.writing text)) [.answered text]
  | deliver (text : String) :
      ConnectionMove reply (.writing text) (some .relaying) [.delivered text]

theorem connectionMove_of_connectionStep
    (hstep : connectionStep reply shutdown c e = some (c', o)) :
    ConnectionMove reply c c' o ∧ requests o = e.request.toList := by
  have plain : ∀ {d d' : Connection}, (∀ text, d ≠ .writing text) → (∀ text, d' ≠ .writing text) →
      ConnectionMove reply d (some d') [] := fun h h' => .proceed fun text => ⟨h text, h' text⟩
  unfold connectionStep at hstep
  split at hstep
  · obtain ⟨rfl, rfl⟩ := Prod.mk.inj (Option.some.inj hstep)
    exact ⟨.close, rfl⟩
  · obtain ⟨rfl, rfl⟩ := Prod.mk.inj (Option.some.inj hstep)
    split
    · exact ⟨plain (by simp) (by simp), rfl⟩
    · exact ⟨.close, rfl⟩
  · obtain ⟨rfl, rfl⟩ := Prod.mk.inj (Option.some.inj hstep)
    split
    · exact ⟨plain (by simp) (by simp), rfl⟩
    · exact ⟨.close, rfl⟩
  · obtain ⟨rfl, rfl⟩ := Prod.mk.inj (Option.some.inj hstep)
    exact ⟨.close, rfl⟩
  · rename_i message taken _
    cases hrequest : message.request with
    | none =>
      rw [hrequest] at hstep
      obtain ⟨rfl, rfl⟩ := Prod.mk.inj (Option.some.inj hstep)
      exact ⟨plain (by simp) (by simp), by rw [ConnectionEvent.request, hrequest]; rfl⟩
    | some request =>
      rw [hrequest] at hstep
      cases taken with
      | true =>
        obtain ⟨rfl, rfl⟩ := Prod.mk.inj (Option.some.inj hstep)
        exact ⟨.ask request, by rw [ConnectionEvent.request, hrequest]; rfl⟩
      | false =>
        obtain ⟨rfl, rfl⟩ := Prod.mk.inj (Option.some.inj hstep)
        exact ⟨.refuse request, by rw [ConnectionEvent.request, hrequest]; rfl⟩
  · obtain ⟨rfl, rfl⟩ := Prod.mk.inj (Option.some.inj hstep)
    exact ⟨.close, rfl⟩
  · obtain ⟨rfl, rfl⟩ := Prod.mk.inj (Option.some.inj hstep)
    exact ⟨.answer _, rfl⟩
  · split at hstep
    · obtain ⟨rfl, rfl⟩ := Prod.mk.inj (Option.some.inj hstep)
      exact ⟨plain (by simp) (by simp), rfl⟩
    · exact absurd hstep (by simp)
  · split at hstep
    · obtain ⟨rfl, rfl⟩ := Prod.mk.inj (Option.some.inj hstep)
      exact ⟨.deliver _, rfl⟩
    · obtain ⟨rfl, rfl⟩ := Prod.mk.inj (Option.some.inj hstep)
      exact ⟨.close, rfl⟩
  · obtain ⟨rfl, rfl⟩ := Prod.mk.inj (Option.some.inj hstep)
    exact ⟨.close, rfl⟩
  · exact absurd hstep (by simp)

/-- The shutdown does not change what a connection does, only when it may leave. -/
theorem connectionStep_eq {shutdown' : Bool} {r r' : Option Connection × List Exchange}
    (h : connectionStep reply shutdown c e = some r)
    (h' : connectionStep reply shutdown' c e = some r') : r = r' := by
  cases shutdown <;> cases shutdown' <;> unfold connectionStep at h h' <;> split at h <;> simp_all

theorem Carried.step (h : Carried reply xs (some c)) (hmove : ConnectionMove reply c c' o) :
    Carried reply (xs ++ o) c' := by
  have plain : ∀ {d : Connection}, (∀ text, d ≠ .writing text) → Carried reply xs (some d) →
      arisen reply xs = deliveries xs := by
    intro d hd h
    cases d with
    | writing text => exact absurd rfl (hd text)
    | handshake | opening | relaying | leaving => exact h
  cases hmove with
  | close => rw [List.append_nil]; exact h.closed
  | @proceed _ c' hplain =>
    rw [List.append_nil]
    have hall := plain (fun text => (hplain text).1) h
    cases c' with
    | writing text => exact absurd rfl (hplain text).2
    | handshake | opening | relaying | leaving => exact hall
  | ask request =>
    show arisen reply (xs ++ _) = deliveries (xs ++ _)
    rw [arisen_append, deliveries_append, show arisen reply xs = deliveries xs from h]
    rfl
  | refuse request =>
    show arisen reply (xs ++ _) = deliveries (xs ++ _) ++ _
    rw [arisen_append, deliveries_append, show arisen reply xs = deliveries xs from h]
    exact (congrArg (· ++ _) (List.append_nil _)).symm
  | answer text =>
    show arisen reply (xs ++ _) = deliveries (xs ++ _) ++ _
    rw [arisen_append, deliveries_append, show arisen reply xs = deliveries xs from h]
    exact (congrArg (· ++ _) (List.append_nil _)).symm
  | deliver text =>
    show arisen reply (xs ++ _) = deliveries (xs ++ _)
    rw [arisen_append, deliveries_append, show arisen reply xs = deliveries xs ++ [text] from h]
    exact List.append_nil _

end

/-! ## What a step of the server can do -/

section

variable {reply : String → String} {s s' t t' : RpcServer} {e : ServerEvent}
  {h o k : List ServerObservation} {client maxConnections : ℕ}

def ServerEvent.client? : ServerEvent → Option ℕ
  | .aborted client | .connection client _ => some client
  | _ => none

inductive ServerMove (reply : String → String) (s : RpcServer) :
    ServerEvent → RpcServer → List ServerObservation → Prop where
  /-- The loop goes on, or is told to end. -/
  | quiet {e : ServerEvent} {s' : RpcServer} (he : e.client? = none)
      (hconnections : s'.connections = s.connections) (hslots : s'.slots = s.slots)
      (harrived : s'.arrived = s.arrived)
      (hended : s'.serving = .ended → s.serving = .ended ∨
        ∀ client < s.arrived, s.connections client = none) : ServerMove reply s e s' []
  | accept {slots : Semaphore ℕ} (hserving : s.serving = .accepting)
      (hslots : s.slots.tryAcquire s.arrived = some slots) :
      ServerMove reply s .accept
        { s with
          slots := slots
          arrived := s.arrived + 1
          connections := Function.update s.connections s.arrived (some .handshake) }
        [.accepted s.arrived]
  | turnAway (hserving : s.serving = .accepting) (hslots : s.slots.tryAcquire s.arrived = none) :
      ServerMove reply s .accept { s with arrived := s.arrived + 1 } [.turnedAway s.arrived]
  /-- A connection takes a step. -/
  | goOn {e : ServerEvent} {client : ℕ} {c : Connection} {c' : Option Connection}
      {xs : List Exchange} (he : e.client? = some client) (hc : s.connections client = some c)
      (hmove : ConnectionMove reply c c' xs) :
      ServerMove reply s e (s.goOn client (c', xs)).1 (s.goOn client (c', xs)).2

theorem serverMove_of_serverStep (hstep : serverStep reply s e = some (s', o)) :
    ServerMove reply s e s' o := by
  have loop : ∀ {serving : Serving}, e.client? = none →
      some ({ s with serving := serving }, []) = some (s', o) →
      (serving = .ended → s.serving = .ended ∨
        ∀ client < s.arrived, s.connections client = none) → ServerMove reply s e s' o := by
    intro serving he heq hended
    obtain ⟨rfl, rfl⟩ := Prod.mk.inj (Option.some.inj heq)
    exact .quiet he rfl rfl rfl hended
  cases e with
  | accept =>
    simp only [serverStep] at hstep
    split_ifs at hstep with hserving
    cases hslots : s.slots.tryAcquire s.arrived with
    | some slots =>
      rw [hslots] at hstep
      obtain ⟨rfl, rfl⟩ := Prod.mk.inj (Option.some.inj hstep)
      exact .accept hserving hslots
    | none =>
      rw [hslots] at hstep
      obtain ⟨rfl, rfl⟩ := Prod.mk.inj (Option.some.inj hstep)
      exact .turnAway hserving hslots
  | acceptFailed =>
    simp only [serverStep] at hstep
    split_ifs at hstep
    exact loop rfl hstep fun h => absurd h (by simp)
  | slept =>
    simp only [serverStep] at hstep
    split_ifs at hstep
    exact loop rfl hstep fun h => absurd h (by simp)
  | requestShutdown =>
    obtain ⟨rfl, rfl⟩ := Prod.mk.inj (Option.some.inj hstep)
    exact .quiet rfl rfl rfl rfl .inl
  | stop =>
    simp only [serverStep] at hstep
    split_ifs at hstep
    exact loop rfl hstep fun h => absurd h (by simp)
  | drained =>
    simp only [serverStep] at hstep
    split_ifs at hstep with hdrained
    exact loop rfl hstep fun _ => .inr hdrained.2
  | aborted client =>
    simp only [serverStep] at hstep
    split_ifs at hstep with hlive
    obtain ⟨c, hc⟩ := Option.isSome_iff_exists.mp hlive.2
    obtain ⟨rfl, rfl⟩ := Prod.mk.inj (Option.some.inj hstep)
    exact .goOn rfl hc .close
  | connection client e =>
    obtain ⟨c, hc, hstep⟩ := Option.bind_eq_some_iff.mp hstep
    obtain ⟨⟨c', xs⟩, hxs, heq⟩ := Option.map_eq_some_iff.mp hstep
    obtain ⟨rfl, rfl⟩ := Prod.mk.inj heq
    exact .goOn rfl hc (connectionMove_of_connectionStep hxs).1

/-! ## What a history says

Who is inside is read off the history and not off the state: a client is inside from when it was
let in until its connection ended.  The bounds are stated with this, and the slots of the state
have to agree. -/

/-- What passed through the connection of a client. -/
def exchanges (client : ℕ) (h : List ServerObservation) : List Exchange :=
  h.filterMap fun
    | .exchanged c x => if c = client then some x else none
    | _ => none

def liveStep (clients : List ℕ) : ServerObservation → List ℕ
  | .accepted client => client :: clients
  | .ended client => clients.erase client
  | .turnedAway _ | .exchanged _ _ => clients

/-- The clients that were let in and have not left. -/
def live (h : List ServerObservation) : List ℕ := h.foldl liveStep []

/-- Where an observation may stand: clients are let in while there is room and turned away while
there is none, once each, and only those inside have anything to do with the server. -/
def Regular (maxConnections : ℕ) (h : List ServerObservation) : ServerObservation → Prop
  | .accepted client => (live h).length < maxConnections ∧ ∀ a ∈ h, a.client ≠ client
  | .turnedAway client => (live h).length = maxConnections ∧ ∀ a ∈ h, a.client ≠ client
  | .exchanged client _ | .ended client => client ∈ live h

theorem live_append (h o : List ServerObservation) : live (h ++ o) = o.foldl liveStep (live h) :=
  List.foldl_append

theorem live_exchanged (clients : List ℕ) (client : ℕ) (xs : List Exchange) :
    (xs.map (ServerObservation.exchanged client)).foldl liveStep clients = clients := by
  induction xs with
  | nil => rfl
  | cons x xs ih => exact ih

theorem exchanges_append (client : ℕ) (h o : List ServerObservation) :
    exchanges client (h ++ o) = exchanges client h ++ exchanges client o := List.filterMap_append

theorem exchanges_exchanged (client : ℕ) (xs : List Exchange) :
    exchanges client (xs.map (ServerObservation.exchanged client)) = xs := by
  rw [exchanges, List.filterMap_map]
  simp

theorem exchanges_eq_nil (hh : ∀ a ∈ h, a.client ≠ client) : exchanges client h = [] := by
  refine List.filterMap_eq_nil_iff.mpr fun a ha => ?_
  cases a with
  | exchanged c x => exact if_neg (hh _ ha)
  | accepted c | turnedAway c | ended c => rfl

theorem client_of_goOn {r : Option Connection × List Exchange} :
    ∀ a ∈ (s.goOn client r).2, a.client = client := by
  obtain ⟨c, xs⟩ := r
  have hxs : ∀ a ∈ xs.map (ServerObservation.exchanged client), a.client = client := by
    intro a ha
    obtain ⟨x, -, rfl⟩ := List.mem_map.mp ha
    rfl
  cases c with
  | some c => exact hxs
  | none =>
    intro a ha
    rcases List.mem_append.mp ha with ha | ha
    · exact hxs a ha
    · obtain rfl := List.mem_singleton.mp ha
      rfl

theorem exchanges_goOn {r : Option Connection × List Exchange} :
    exchanges client (s.goOn client r).2 = r.2 := by
  obtain ⟨c, xs⟩ := r
  cases c with
  | some c => exact exchanges_exchanged client xs
  | none =>
    rw [RpcServer.goOn, exchanges_append, exchanges_exchanged]
    exact List.append_nil _

/-! ## Every run -/

/-- What the state knows of the history. -/
structure Keeps (reply : String → String) (maxConnections : ℕ) (h : List ServerObservation)
    (s : RpcServer) : Prop where
  holders : s.slots.holders = live h
  capacity : s.slots.capacity = maxConnections
  nodup : (live h).Nodup
  mem_live : ∀ client, client ∈ live h ↔ (s.connections client).isSome
  fresh : ∀ a ∈ h, a.client < s.arrived
  below : ∀ client ∈ live h, client < s.arrived
  regular : EventMachine.Justified (Regular maxConnections) h
  carried : ∀ client, Carried reply (exchanges client h) (s.connections client)
  ended : s.serving = .ended → live h = []

theorem Keeps.start : Keeps reply maxConnections [] (.start maxConnections) where
  holders := rfl
  capacity := rfl
  nodup := List.nodup_nil
  mem_live client := by simp [live, RpcServer.start]
  fresh a ha := absurd ha List.not_mem_nil
  below client hc := absurd hc List.not_mem_nil
  regular := EventMachine.justified_nil _
  carried client := ⟨[], Nat.zero_le _, rfl⟩
  ended h := absurd h (by simp [RpcServer.start])

theorem Keeps.new (k : Keeps reply maxConnections h s) : ∀ a ∈ h, a.client ≠ s.arrived :=
  fun a ha => Nat.ne_of_lt (k.fresh a ha)

theorem Keeps.not_live (k : Keeps reply maxConnections h s) : s.arrived ∉ live h :=
  fun hlive => Nat.lt_irrefl _ (k.below _ hlive)

theorem Keeps.accept (k : Keeps reply maxConnections h s) {slots : Semaphore ℕ}
    (hserving : s.serving = .accepting) (hslots : s.slots.tryAcquire s.arrived = some slots) :
    Keeps reply maxConnections (h ++ [.accepted s.arrived])
      { s with
        slots := slots
        arrived := s.arrived + 1
        connections := Function.update s.connections s.arrived (some .handshake) } := by
  obtain ⟨hroom, hholders, hcapacity⟩ := Semaphore.of_tryAcquire hslots
  have hlive : live (h ++ [.accepted s.arrived]) = s.arrived :: live h := live_append _ _
  refine ⟨by rw [hlive, ← k.holders]; exact hholders, hcapacity.trans k.capacity, ?_, ?_, ?_, ?_,
    ?_, ?_, fun hended => absurd (hserving.symm.trans hended) (by simp)⟩
  · rw [hlive]
    exact List.nodup_cons.mpr ⟨k.not_live, k.nodup⟩
  · intro client
    show client ∈ _ ↔ (Function.update s.connections s.arrived (some .handshake) client).isSome
    rw [hlive, List.mem_cons]
    rcases eq_or_ne client s.arrived with rfl | hne
    · simp
    · rw [Function.update_of_ne hne, ← k.mem_live client]
      simp [hne]
  · intro a ha
    rcases List.mem_append.mp ha with ha | ha
    · exact Nat.lt_succ_of_lt (k.fresh a ha)
    · obtain rfl := List.mem_singleton.mp ha
      exact Nat.lt_succ_self _
  · intro client hclient
    rw [hlive] at hclient
    rcases List.mem_cons.mp hclient with rfl | hclient
    · exact Nat.lt_succ_self _
    · exact Nat.lt_succ_of_lt (k.below client hclient)
  · refine EventMachine.justified_append_singleton.mpr ⟨k.regular, ?_, k.new⟩
    rwa [← k.holders, ← k.capacity]
  · intro client
    show Carried reply _ (Function.update s.connections s.arrived (some .handshake) client)
    rw [exchanges_append, show exchanges client [.accepted s.arrived] = [] from rfl,
      List.append_nil]
    rcases eq_or_ne client s.arrived with rfl | hne
    · rw [Function.update_self, exchanges_eq_nil k.new]
      rfl
    · rw [Function.update_of_ne hne]
      exact k.carried client

theorem Keeps.turnAway (k : Keeps reply maxConnections h s) (hserving : s.serving = .accepting)
    (hslots : s.slots.tryAcquire s.arrived = none) :
    Keeps reply maxConnections (h ++ [.turnedAway s.arrived])
      { s with arrived := s.arrived + 1 } := by
  have hlive : live (h ++ [.turnedAway s.arrived]) = live h := live_append _ _
  refine ⟨by rw [hlive]; exact k.holders, k.capacity, by rw [hlive]; exact k.nodup,
    by rw [hlive]; exact k.mem_live, ?_, ?_, ?_, ?_,
    fun hended => absurd (hserving.symm.trans hended) (by simp)⟩
  · intro a ha
    rcases List.mem_append.mp ha with ha | ha
    · exact Nat.lt_succ_of_lt (k.fresh a ha)
    · obtain rfl := List.mem_singleton.mp ha
      exact Nat.lt_succ_self _
  · rw [hlive]
    exact fun client hclient => Nat.lt_succ_of_lt (k.below client hclient)
  · refine EventMachine.justified_append_singleton.mpr ⟨k.regular, ?_, k.new⟩
    rw [← k.holders, ← k.capacity]
    exact Semaphore.full_of_tryAcquire hslots
  · intro client
    rw [exchanges_append, show exchanges client [.turnedAway s.arrived] = [] from rfl,
      List.append_nil]
    exact k.carried client

theorem justified_exchanged {client : ℕ} (xs : List Exchange)
    (hj : EventMachine.Justified (Regular maxConnections) h) (hclient : client ∈ live h) :
    EventMachine.Justified (Regular maxConnections)
      (h ++ xs.map (ServerObservation.exchanged client)) := by
  induction xs generalizing h with
  | nil => rwa [List.map_nil, List.append_nil]
  | cons x xs ih =>
    rw [List.map_cons, List.append_cons]
    refine ih (EventMachine.justified_append_singleton.mpr ⟨hj, hclient⟩) ?_
    rw [live_append]
    exact hclient

theorem Keeps.goOn (k : Keeps reply maxConnections h s) {client : ℕ} {c : Connection}
    {c' : Option Connection} {xs : List Exchange} (hc : s.connections client = some c)
    (hmove : ConnectionMove reply c c' xs) :
    Keeps reply maxConnections (h ++ (s.goOn client (c', xs)).2)
      (s.goOn client (c', xs)).1 := by
  have hclient : client ∈ live h := (k.mem_live client).mpr (by rw [hc]; rfl)
  have hfresh : ∀ a ∈ h ++ (s.goOn client (c', xs)).2, a.client < s.arrived := by
    intro a ha
    rcases List.mem_append.mp ha with ha | ha
    · exact k.fresh a ha
    · rw [client_of_goOn a ha]
      exact k.below client hclient
  have hcarried : ∀ i, Carried reply (exchanges i (h ++ (s.goOn client (c', xs)).2))
      (Function.update s.connections client c' i) := by
    intro i
    rw [exchanges_append]
    rcases eq_or_ne i client with rfl | hne
    · have hbefore := k.carried i
      rw [hc] at hbefore
      rw [Function.update_self, exchanges_goOn]
      exact hbefore.step hmove
    · rw [Function.update_of_ne hne, exchanges_eq_nil fun a ha heq =>
        hne (heq.symm.trans (client_of_goOn a ha)), List.append_nil]
      exact k.carried i
  have hnone : s.serving ≠ .ended := fun hended => by
    rw [k.ended hended] at hclient
    exact absurd hclient List.not_mem_nil
  have hexchanged := justified_exchanged xs k.regular hclient
  cases c' with
  | some c' =>
    have hlive : live (h ++ xs.map (.exchanged client)) = live h :=
      (live_append _ _).trans (live_exchanged _ _ _)
    refine ⟨?_, k.capacity, ?_, ?_, hfresh, ?_, hexchanged, hcarried, fun hended =>
      absurd hended hnone⟩ <;> rw [RpcServer.goOn, hlive]
    · exact k.holders
    · exact k.nodup
    · intro i
      show i ∈ live h ↔ (Function.update s.connections client (some c') i).isSome
      rcases eq_or_ne i client with rfl | hne
      · simp [hclient]
      · rw [Function.update_of_ne hne]
        exact k.mem_live i
    · exact k.below
  | none =>
    have hlive : live (h ++ (xs.map (.exchanged client) ++ [.ended client])) =
        (live h).erase client := by
      rw [live_append, List.foldl_append, live_exchanged]
      rfl
    refine ⟨?_, k.capacity, ?_, ?_, hfresh, ?_, ?_, hcarried, fun hended =>
      absurd hended hnone⟩
    · rw [RpcServer.goOn, hlive, ← k.holders]
      rfl
    · rw [RpcServer.goOn, hlive]
      exact k.nodup.erase client
    · intro i
      show _ ↔ (Function.update s.connections client none i).isSome
      rw [RpcServer.goOn, hlive, k.nodup.mem_erase_iff]
      rcases eq_or_ne i client with rfl | hne
      · simp
      · rw [Function.update_of_ne hne, ← k.mem_live i]
        simp [hne]
    · intro i hi
      rw [RpcServer.goOn, hlive] at hi
      exact k.below i (List.mem_of_mem_erase hi)
    · rw [RpcServer.goOn, ← List.append_assoc]
      refine EventMachine.justified_append_singleton.mpr ⟨hexchanged, ?_⟩
      show client ∈ live _
      rw [live_append, live_exchanged]
      exact hclient

theorem Keeps.step (k : Keeps reply maxConnections h s)
    (hmove : ServerMove reply s e s' o) : Keeps reply maxConnections (h ++ o) s' := by
  cases hmove with
  | quiet _ hconnections hslots harrived hended =>
    rw [List.append_nil]
    refine ⟨by rw [hslots]; exact k.holders, by rw [hslots]; exact k.capacity, k.nodup,
      by rw [hconnections]; exact k.mem_live, by rw [harrived]; exact k.fresh,
      by rw [harrived]; exact k.below, k.regular, by rw [hconnections]; exact k.carried,
      fun h => ?_⟩
    rcases hended h with h | hnone
    · exact k.ended h
    · refine List.eq_nil_iff_forall_not_mem.mpr fun client hclient => ?_
      have hsome := (k.mem_live client).mp hclient
      rw [hnone client (k.below client hclient)] at hsome
      exact absurd hsome (by simp)
  | accept hserving hslots => exact k.accept hserving hslots
  | turnAway hserving hslots => exact k.turnAway hserving hslots
  | goOn _ hc hmove => exact k.goOn hc hmove

/-- The requests that a client sends to its connection. -/
def sentBy (client : ℕ) (es : List ServerEvent) : List String :=
  es.filterMap fun
    | .connection c e => if c = client then e.request else none
    | _ => none

theorem requests_of_serverStep (hstep : serverStep reply s e = some (s', o)) (client : ℕ) :
    requests (exchanges client o) = sentBy client [e] := by
  cases e with
  | connection c e =>
    obtain ⟨d, hd, hstep⟩ := Option.bind_eq_some_iff.mp hstep
    obtain ⟨r, hr, heq⟩ := Option.map_eq_some_iff.mp hstep
    obtain rfl : (s.goOn c r).2 = o := congrArg Prod.snd heq
    rcases eq_or_ne c client with rfl | hne
    · rw [exchanges_goOn, (connectionMove_of_connectionStep hr).2]
      cases hrequest : e.request <;> simp [sentBy, hrequest]
    · rw [exchanges_eq_nil fun a ha heq => hne ((client_of_goOn a ha).symm.trans heq)]
      simp [sentBy, hne, requests]
  | aborted c =>
    simp only [serverStep] at hstep
    split_ifs at hstep
    obtain ⟨rfl, rfl⟩ := Prod.mk.inj (Option.some.inj hstep)
    rfl
  | accept =>
    simp only [serverStep] at hstep
    split_ifs at hstep
    split at hstep <;> obtain ⟨rfl, rfl⟩ := Prod.mk.inj (Option.some.inj hstep) <;> rfl
  | acceptFailed | slept | stop | drained =>
    simp only [serverStep] at hstep
    split_ifs at hstep
    obtain ⟨rfl, rfl⟩ := Prod.mk.inj (Option.some.inj hstep)
    rfl
  | requestShutdown =>
    obtain ⟨rfl, rfl⟩ := Prod.mk.inj (Option.some.inj hstep)
    rfl

/-! ## Two clients

What a client has to do with the server is its own connection, and what a connection shows depends
on it and on its events alone.  `Same` asks only this of two states, so others may have come and
gone in one of them and not in the other.  Being let in is not part of it: that is where clients do
compete. -/

/-- A client that has connected, in two states. -/
def Same (client : ℕ) (s t : RpcServer) : Prop :=
  client < s.arrived ∧ client < t.arrived ∧ s.connections client = t.connections client

/-- The event is about the client. -/
def ServerEvent.concerns (client : ℕ) (e : ServerEvent) : Bool := e.client? = some client

/-- The observation is about the client. -/
def ServerObservation.visible (client : ℕ) (a : ServerObservation) : Bool := a.client = client

theorem filter_visible_eq_nil {client : ℕ} (ho : ∀ a ∈ o, a.client ≠ client) :
    o.filter (ServerObservation.visible client) = [] :=
  List.filter_eq_nil_iff.mpr fun a ha => by
    rw [ServerObservation.visible, decide_eq_true_eq]
    exact ho a ha

/-- Nothing that happens to others is seen by a client. -/
theorem same_unseen {client : ℕ} (hsame : Same client s t)
    (he : ServerEvent.concerns client e = false) (hmove : ServerMove reply s e s' o) :
    Same client s' t ∧ o.filter (ServerObservation.visible client) = [] := by
  obtain ⟨hs, ht, heq⟩ := hsame
  cases hmove with
  | quiet _ hconnections _ harrived _ =>
    exact ⟨⟨by rwa [harrived], ht, by rw [hconnections, heq]⟩, rfl⟩
  | accept _ _ =>
    refine ⟨⟨Nat.lt_succ_of_lt hs, ht, ?_⟩, filter_visible_eq_nil fun a ha => ?_⟩
    · rw [← heq]
      exact Function.update_of_ne (Nat.ne_of_lt hs) _ _
    · obtain rfl := List.mem_singleton.mp ha
      exact (Nat.ne_of_lt hs).symm
  | turnAway _ _ =>
    refine ⟨⟨Nat.lt_succ_of_lt hs, ht, heq⟩, filter_visible_eq_nil fun a ha => ?_⟩
    obtain rfl := List.mem_singleton.mp ha
    exact (Nat.ne_of_lt hs).symm
  | @goOn _ other c c' xs hother hc hmove =>
    have hne : other ≠ client := by
      rintro rfl
      rw [ServerEvent.concerns, hother] at he
      exact absurd he (by simp)
    refine ⟨?_, filter_visible_eq_nil fun a ha heq => hne ((client_of_goOn a ha).symm.trans heq)⟩
    cases c' <;> exact ⟨hs, ht, (Function.update_of_ne hne.symm _ _).trans heq⟩

/-- What happens to a client is seen alike in both states. -/
theorem same_seen {client : ℕ} (hsame : Same client s t)
    (he : ServerEvent.concerns client e = true) (hs : serverStep reply s e = some (s', o))
    (ht : serverStep reply t e = some (t', k)) : Same client s' t' ∧ o = k := by
  have hgo : ∀ r, Same client (s.goOn client r).1 (t.goOn client r).1 ∧
      (s.goOn client r).2 = (t.goOn client r).2 := by
    rintro ⟨c, xs⟩
    have hupdate : Function.update s.connections client c client =
        Function.update t.connections client c client := by
      rw [Function.update_self, Function.update_self]
    cases c <;> exact ⟨⟨hsame.1, hsame.2.1, hupdate⟩, rfl⟩
  rw [ServerEvent.concerns, decide_eq_true_eq] at he
  cases e with
  | connection c e =>
    obtain rfl : c = client := Option.some.inj he
    obtain ⟨d, hd, hs⟩ := Option.bind_eq_some_iff.mp hs
    obtain ⟨d', hd', ht⟩ := Option.bind_eq_some_iff.mp ht
    obtain rfl : d = d' := Option.some.inj (hd.symm.trans (hsame.2.2.trans hd'))
    obtain ⟨r, hr, hs⟩ := Option.map_eq_some_iff.mp hs
    obtain ⟨r', hr', ht⟩ := Option.map_eq_some_iff.mp ht
    obtain rfl := connectionStep_eq hr hr'
    obtain ⟨rfl, rfl⟩ := Prod.mk.inj hs
    obtain ⟨rfl, rfl⟩ := Prod.mk.inj ht
    exact hgo r
  | aborted c =>
    obtain rfl : c = client := Option.some.inj he
    simp only [serverStep] at hs ht
    split_ifs at hs
    split_ifs at ht
    obtain ⟨rfl, rfl⟩ := Prod.mk.inj (Option.some.inj hs)
    obtain ⟨rfl, rfl⟩ := Prod.mk.inj (Option.some.inj ht)
    exact hgo (none, [])
  | accept | acceptFailed | slept | requestShutdown | stop | drained =>
    exact absurd he (by simp [ServerEvent.client?])

theorem same_unwinds (reply : String → String) (client : ℕ) :
    (rpcServer reply).Unwinds (ServerEvent.concerns client) (ServerObservation.visible client)
      (fun _ _ => True) (Same client) where
  symm _ _ h := ⟨h.2.1, h.1, h.2.2.symm⟩
  unseen _ _ _ _ _ h he hstep := same_unseen h he (serverMove_of_serverStep hstep)
  seen _ _ _ _ _ _ _ h he _ _ hs ht :=
    have hboth := same_seen h he hs ht
    ⟨hboth.1, congrArg _ hboth.2⟩

/-! ## The end

Only what comes to pass by itself is used to get there: the pause ends, the shutdown is noticed,
connections are aborted, and the last task is joined.  The induction is on the number of clients
that are still inside. -/

/-- What comes to pass whatever the clients and the frontends do. -/
def ServerEvent.Own : ServerEvent → Prop
  | .slept | .stop | .aborted _ | .drained => True
  | _ => False

/-- The server can get to its end by itself. -/
def Ends (reply : String → String) (s : RpcServer) : Prop :=
  ∃ es t k, (rpcServer reply).exec s es = some (t, k) ∧ t.serving = .ended ∧
    ∀ e ∈ es, e.Own

theorem Ends.cons (hends : Ends reply s') (he : e.Own)
    (hstep : serverStep reply s e = some (s', o)) : Ends reply s := by
  obtain ⟨es, t, k, hrun, hended, hown⟩ := hends
  exact ⟨e :: es, t, o ++ k, EventMachine.exec_cons_eq_some_iff.mpr ⟨s', o, k, hstep, hrun, rfl⟩,
    hended, List.forall_mem_cons.mpr ⟨he, hown⟩⟩

/-- A server that left its loop aborts its connections one by one. -/
theorem Keeps.ends_of_closing (k : Keeps reply maxConnections h s)
    (hserving : s.serving = .closing) : Ends reply s := by
  induction hn : (live h).length generalizing h s with
  | zero =>
    have hnone : ∀ client < s.arrived, s.connections client = none := by
      intro client _
      rw [← Option.not_isSome_iff_eq_none, ← k.mem_live client, List.length_eq_zero_iff.mp hn]
      exact List.not_mem_nil
    have hstep : serverStep reply s .drained = some ({ s with serving := .ended }, []) :=
      if_pos ⟨hserving, hnone⟩
    have hends : Ends reply { s with serving := .ended } :=
      ⟨[], _, [], rfl, rfl, fun e he => absurd he List.not_mem_nil⟩
    exact hends.cons (e := .drained) trivial hstep
  | succ n ih =>
    obtain ⟨client, hclient⟩ := List.exists_mem_of_length_pos (by omega : 0 < (live h).length)
    have hsome := (k.mem_live client).mp hclient
    obtain ⟨c, hc⟩ := Option.isSome_iff_exists.mp hsome
    have hlive : live (h ++ [.ended client]) = (live h).erase client := live_append _ _
    refine Ends.cons (ih (k.goOn hc .close) hserving ?_) (e := .aborted client) trivial
      (if_pos ⟨hserving, hsome⟩)
    show (live (h ++ [.ended client])).length = n
    rw [hlive, List.length_erase_of_mem hclient, hn]
    rfl

theorem Keeps.ends (k : Keeps reply maxConnections h s) (hshutdown : s.shutdown = true) :
    Ends reply s := by
  have hstop : ∀ {s : RpcServer}, Keeps reply maxConnections h s → s.shutdown = true →
      s.serving = .accepting → Ends reply s := by
    intro s k hshutdown hserving
    have hmove : serverStep reply s .stop = some ({ s with serving := .closing }, []) :=
      if_pos ⟨hserving, hshutdown⟩
    have k' := k.step (serverMove_of_serverStep hmove)
    exact (k'.ends_of_closing rfl).cons (e := .stop) trivial hmove
  cases hserving : s.serving with
  | accepting => exact hstop k hshutdown hserving
  | pausing =>
    have hmove : serverStep reply s .slept = some ({ s with serving := .accepting }, []) :=
      if_pos hserving
    have k' := k.step (serverMove_of_serverStep hmove)
    rw [List.append_nil] at k'
    exact (hstop k' hshutdown rfl).cons (e := .slept) trivial hmove
  | closing => exact k.ends_of_closing hserving
  | ended => exact ⟨[], s, [], rfl, hserving, fun e he => absurd he List.not_mem_nil⟩

/-- What a run of the server shows and where it gets. -/
structure Serves (reply : String → String) (maxConnections : ℕ) (es : List ServerEvent)
    (h : List ServerObservation) (s : RpcServer) : Prop where
  /-- Clients are let in while there is room, and turned away only while there is none. -/
  regular : EventMachine.Justified (Regular maxConnections) h
  /-- Who is inside has one connection, and the others have none. -/
  nodup : (live h).Nodup
  mem_live : ∀ client, client ∈ live h ↔ (s.connections client).isSome
  /-- All that arises for a client is delivered to it, in order, but for the text being written. -/
  carried : ∀ client, Carried reply (exchanges client h) (s.connections client)
  /-- All that a client asks is taken, or refused with an answer. -/
  requests : ∀ client, requests (exchanges client h) = sentBy client es
  /-- The other clients do not matter to a client. -/
  apart : ∀ client t, Same client s t → ∀ es s' h fs t' k,
    (rpcServer reply).exec s es = some (s', h) →
    (rpcServer reply).exec t fs = some (t', k) →
    es.filter (ServerEvent.concerns client) = fs.filter (ServerEvent.concerns client) →
    h.filter (ServerObservation.visible client) = k.filter (ServerObservation.visible client)
  /-- Nobody can keep the server from its end, where nobody is left inside. -/
  ends : s.shutdown = true → Ends reply s
  ended : s.serving = .ended → live h = []

end

/-- **The endpoint is fair and its clients are kept apart.**  In every run of the server: clients
are let in while there is room and turned away only while there is none; each is sent, in order,
all that arose for it, and each of its requests is taken or refused with an answer; two runs in
which a client does the same show it the same, whatever the others do; and after the shutdown the
server can always come to its end. -/
theorem rpc_serves (json : SerdeJson) (maxConnections : ℕ) {es : List ServerEvent}
    {s : RpcServer} {h : List ServerObservation}
    (hrun : (rpcServer (busyReply json)).exec (.start maxConnections) es = some (s, h)) :
    Serves (busyReply json) maxConnections es h s := by
  have hkeeps : Keeps (busyReply json) maxConnections h s ∧
      ∀ client, requests (exchanges client h) = sentBy client es := by
    refine EventMachine.exec_induction
      (P := fun es h s => Keeps (busyReply json) maxConnections h s ∧
        ∀ client, requests (exchanges client h) = sentBy client es)
      ⟨.start, fun client => rfl⟩ ?_ hrun
    intro es h s e t o _ ⟨k, hrequests⟩ hstep
    refine ⟨k.step (serverMove_of_serverStep hstep), fun client => ?_⟩
    rw [exchanges_append, requests_append, hrequests client, requests_of_serverStep hstep client]
    exact List.filterMap_append.symm
  obtain ⟨k, hrequests⟩ := hkeeps
  refine ⟨k.regular, k.nodup, k.mem_live, k.carried, hrequests, ?_, k.ends, k.ended⟩
  intro client t hsame es s' h fs t' k hes hfs hfilter
  exact ((same_unwinds (busyReply json) client).exec hsame hfilter hes hfs
    (EventMachine.stepsMeet_of_forall (fun _ _ => trivial) _ _)
    (EventMachine.stepsMeet_of_forall (fun _ _ => trivial) _ _)).2

/-- Two clients and room for one.  The one that is let in asks twice, and the frontend takes only
the first of its requests. -/
def oneSlot : List ServerEvent :=
  [.accept, .accept, .connection 0 (.shaken true), .connection 0 (.opened true),
    .connection 0 (.incoming (.text "a") true), .connection 0 (.incoming (.text "b") false),
    .connection 0 (.written true), .connection 0 (.response (some "x")), .requestShutdown, .stop,
    .aborted 0, .drained]

/-- The answer to what is no JSON. -/
def busyText : String :=
  "\x7b\"jsonrpc\":\"2.0\",\"id\":null,\"error\":\x7b\"code\":-32000,\"message\":\"Too many " ++
    "pending requests\"\x7d\x7d"

/-- As the crate does with what is no JSON. -/
def noJson : SerdeJson := ⟨ℤ, id, fun _ => none, fun _ => busyText⟩

theorem rpc_serves_oneSlot : ∃ s,
    (rpcServer (busyReply noJson)).exec (.start 1) oneSlot = some (s,
      [.accepted 0, .turnedAway 1, .exchanged 0 (.asked "a"), .exchanged 0 (.refused "b"),
        .exchanged 0 (.delivered busyText), .exchanged 0 (.answered "x"), .ended 0]) ∧
    Serves (busyReply noJson) 1 oneSlot
      [.accepted 0, .turnedAway 1, .exchanged 0 (.asked "a"), .exchanged 0 (.refused "b"),
        .exchanged 0 (.delivered busyText), .exchanged 0 (.answered "x"), .ended 0] s := by
  have hrun : ∃ s, (rpcServer (busyReply noJson)).exec (.start 1) oneSlot = some (s,
      [.accepted 0, .turnedAway 1, .exchanged 0 (.asked "a"), .exchanged 0 (.refused "b"),
        .exchanged 0 (.delivered busyText), .exchanged 0 (.answered "x"), .ended 0]) := ⟨_, rfl⟩
  obtain ⟨s, hs⟩ := hrun
  exact ⟨s, hs, rpc_serves _ 1 hs⟩

end Light
end Robins
