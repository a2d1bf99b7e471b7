import Robins.Bridge.RoundTrip
import Robins.Cps.Transaction
import Robins.Lib.EventMachine

/-!
# From a topic over the chain to a topic

A subscribe entry and a publish entry of one node, and the chain between them.  The first takes one
message at a time: it submits what it stores for the message and waits until that is finalized, or
has failed, before it takes the next.  The second follows the finalized blocks.  In a block that
sets the payload of the node it sees the payload after the block, and publishes what it makes of
it.

Two writes in one block are therefore one change.  That cannot happen to the messages of one
entry, unless it loses track of a transaction that it has submitted, or someone else writes the
node.

## What holds of every run

`Relayed` has three accounts, each kept by an induction of its own over the steps.

* `Read`: the publish entry reads the blocks in their order, and what it publishes is, for each
  block that it could read and that set the payload, what it makes of the payload after it.
* `Sent`: the subscribe entry submits in the order of its messages, and what it stores for them.
* `Separate`: if nobody else writes the node and the entry does not lose track, each message that
  landed has a block of its own, so no change is hidden by a later one.

Where all blocks are read and all three hold, the topics say the same: what is published is what
landed, message by message and in order.
-/

namespace Robins
namespace Bridge

open Crypto
open scoped List

/-! ## Blocks -/

/-- Node data a watcher follows. -/
inductive Field where
  | metadata
  | payload
  deriving DecidableEq, Repr

/-- An event of a block: the field of a node was set, or cleared. -/
structure FieldSet where
  field : Field
  node : UInt64
  deriving DecidableEq, Repr

/-- The fields of all nodes. -/
abbrev Values := Field → UInt64 → Option Bytes

/-- The values after a field was set. -/
def Values.set (values : Values) (field : Field) (node : UInt64) (value : Option Bytes) : Values :=
  fun field' node' => if field' = field ∧ node' = node then value else values field' node'

/-- A finalized block, and the values after it. -/
structure Block where
  number : ℕ
  events : List FieldSet
  values : Values

/-- A value change of a watched field, observed in a finalized block. -/
structure Change where
  blockNumber : ℕ
  value : Option Bytes
  deriving DecidableEq, Repr

/-- What can go wrong with the reading of a block. -/
inductive ReadFault where
  /-- The block cannot be accessed, or its events cannot. -/
  | events (text : String)
  /-- The events of the node cannot be decoded; they are passed over. -/
  | garbled
  | storage (text : String)

/-- The change of the field of the node that the block makes, if any. -/
def changeIn (node : UInt64) (field : Field) (block : Block) (fault : Option ReadFault) :
    Except Cps.Error (Option Change) :=
  match fault with
  | some (.events text) => .error (.runtime text)
  | some .garbled => .ok none
  | some (.storage text) =>
    if ⟨field, node⟩ ∈ block.events then .error (.runtime text) else .ok none
  | none =>
    if ⟨field, node⟩ ∈ block.events then .ok (some ⟨block.number, block.values field node⟩)
    else .ok none

/-! ## State -/

/-- How a transaction that is followed has ended. -/
inductive Outcome where
  | landed
  | denied
  | dropped
  deriving DecidableEq, Repr

/-- The transaction that the subscribe entry waits for. -/
structure Follow where
  id : ℕ
  outcome : Option Outcome
  deriving DecidableEq, Repr

/-- The two entries, and the chain as far as they see it. -/
structure Relay where
  values : Values
  number : ℕ
  /-- Transactions of the subscribe entry that were submitted, and are in no block. -/
  pool : List (ℕ × Bytes)
  nextId : ℕ
  following : Option Follow
  /-- Finalized blocks that the watcher has not read. -/
  unread : List Block
  watching : Bool

def Relay.start (values : Values) : Relay := ⟨values, 0, [], 0, none, [], true⟩

/-- How the submission of a transaction can go. -/
inductive Submission where
  | accepted
  /-- The entry is told that it failed, and the transaction was sent nevertheless. -/
  | lost
  | refused
  deriving DecidableEq, Repr

/-- What a block executes. -/
inductive Item where
  /-- A transaction of the entry, which may have lost its access to the node. -/
  | own (id : ℕ) (granted : Bool)
  | other (field : Field) (node : UInt64) (value : Option Bytes)

inductive RelayEvent where
  | arrive (payload : Bytes) (nonces : Nonces) (submission : Submission)
  | finalize (items : List Item)
  /-- The pool of transactions drops one. -/
  | drop (id : ℕ)
  /-- The entry learns how its transaction has ended. -/
  | settle
  /-- It is told that it failed, without knowing. -/
  | cut
  /-- The watcher reads the next block; what it makes of it may not reach the broker. -/
  | read (fault : Option ReadFault) (delivered : Bool)
  /-- The stream of blocks fails, and may lose blocks. -/
  | streamFailed (lost : ℕ)
  | streamEnded

inductive RelayObservation where
  /-- The message handler is called. -/
  | received (payload : Bytes)
  | submitted (id : ℕ) (nodeData : Bytes)
  | landed (id : ℕ) (nodeData : Bytes)
  | finalized (block : Block)
  /-- The publish handler is called. -/
  | published (blockNumber : ℕ) (data : Bytes)

/-! ## Steps -/

/-- The transaction with the id has ended. -/
def Follow.close (id : ℕ) (outcome : Outcome) (follow : Follow) : Follow :=
  if follow.id = id then { follow with outcome := some outcome } else follow

/-- A block that is built. -/
structure Draft where
  values : Values
  events : List FieldSet
  pool : List (ℕ × Bytes)
  following : Option Follow
  landed : List (ℕ × Bytes)

/-- One more item of the block. -/
def Draft.add (node : UInt64) (d : Draft) : Item → Option Draft
  | .own id granted =>
    (d.pool.lookup id).map fun nodeData =>
      let pool := d.pool.filter (·.1 ≠ id)
      if granted then
        { values := d.values.set .payload node (some nodeData)
          events := d.events ++ [⟨.payload, node⟩]
          pool
          following := d.following.map (Follow.close id .landed)
          landed := d.landed ++ [(id, nodeData)] }
      else { d with pool, following := d.following.map (Follow.close id .denied) }
  | .other field n value =>
    some { d with values := d.values.set field n value, events := d.events ++ [⟨field, n⟩] }

/-- All items of the block. -/
def Draft.addAll (node : UInt64) : Draft → List Item → Option Draft
  | d, [] => some d
  | d, item :: items => (d.add node item).bind fun d => d.addAll node items

/-- The block that comes next, before its first item. -/
def Relay.draft (s : Relay) : Draft := ⟨s.values, [], s.pool, s.following, []⟩

/-- The block with its items. -/
def Relay.seal (s : Relay) (d : Draft) : Relay × List RelayObservation :=
  let block : Block := ⟨s.number, d.events, d.values⟩
  ({ s with
      values := d.values
      number := s.number + 1
      pool := d.pool
      following := d.following
      unread := s.unread ++ [block] },
    d.landed.map (fun p => .landed p.1 p.2) ++ [.finalized block])

section

variable (crates : Crates) (toJson : EncryptedMessage → Except String String)
  (subscription : Subscription) (cipher : Option Signer)

def Relay.take (s : Relay) (payload : Bytes) (nonces : Nonces) (submission : Submission) :
    Relay × List RelayObservation :=
  match subscription.store crates nonces payload, submission with
  | .error _, _ | .ok _, .refused => (s, [.received payload])
  | .ok nodeData, .lost =>
    ({ s with pool := s.pool ++ [(s.nextId, nodeData)], nextId := s.nextId + 1 },
      [.received payload, .submitted s.nextId nodeData])
  | .ok nodeData, .accepted =>
    ({ s with
        pool := s.pool ++ [(s.nextId, nodeData)]
        nextId := s.nextId + 1
        following := some ⟨s.nextId, none⟩ },
      [.received payload, .submitted s.nextId nodeData])

/-- What the publish entry does with a block that was read. -/
def publishChange (change : Except Cps.Error (Option Change)) (delivered : Bool) :
    List RelayObservation :=
  match change with
  | .ok (some ⟨number, some nodeData⟩) =>
    match published crates toJson cipher nodeData with
    | some data => if delivered then [.published number data] else []
    | none => []
  | .ok _ | .error _ => []

/-- One step of the entries or of the chain. -/
def relayStep (s : Relay) : RelayEvent → Option (Relay × List RelayObservation)
  | .arrive payload nonces submission =>
    if s.following = none then some (s.take crates subscription payload nonces submission)
    else none
  | .finalize items =>
    (s.draft.addAll subscription.nodeId items).map s.seal
  | .drop id =>
    some ({ s with
      pool := s.pool.filter (·.1 ≠ id)
      following :=
        if (s.pool.lookup id).isSome then s.following.map (Follow.close id .dropped)
        else s.following }, [])
  | .settle =>
    match s.following with
    | some ⟨_, some _⟩ => some ({ s with following := none }, [])
    | _ => none
  | .cut =>
    match s.following with
    | some _ => some ({ s with following := none }, [])
    | none => none
  | .read fault delivered =>
    match s.unread with
    | block :: unread =>
      if s.watching then
        some ({ s with unread },
          publishChange crates toJson cipher
            (changeIn subscription.nodeId .payload block fault) delivered)
      else none
    | [] => none
  | .streamFailed lost => some ({ s with unread := s.unread.drop lost }, [])
  | .streamEnded => some ({ s with watching := false }, [])

def relay : EventMachine Relay RelayEvent RelayObservation :=
  ⟨relayStep crates toJson subscription cipher⟩

/-! ## What a step can do -/

inductive RelayMove (s : Relay) : RelayEvent → Relay → List RelayObservation → Prop
  | refuse {payload : Bytes} {nonces : Nonces} {submission : Submission} :
    RelayMove s (.arrive payload nonces submission) s [.received payload]
  | submit {payload nodeData : Bytes} {nonces : Nonces} {submission : Submission}
    {following : Option Follow} (hidle : s.following = none)
    (hstore : subscription.store crates nonces payload = .ok nodeData)
    (hfollowing : submission = .lost ∨ following = some ⟨s.nextId, none⟩) :
    RelayMove s (.arrive payload nonces submission)
      { s with pool := s.pool ++ [(s.nextId, nodeData)], nextId := s.nextId + 1, following }
      [.received payload, .submitted s.nextId nodeData]
  | finalize {items : List Item} {d : Draft}
    (hitems : s.draft.addAll subscription.nodeId items = some d) :
    RelayMove s (.finalize items) (s.seal d).1 (s.seal d).2
  | drop {id : ℕ} {following : Option Follow}
    (hfollowing : (s.pool.lookup id).isSome = true ∨ following = s.following) :
    RelayMove s (.drop id) { s with pool := s.pool.filter (·.1 ≠ id), following } []
  | settle {follow : Follow} (hfollowing : s.following = some follow)
    (houtcome : follow.outcome ≠ none) : RelayMove s .settle { s with following := none } []
  | cut : RelayMove s .cut { s with following := none } []
  | read {fault : Option ReadFault} {delivered : Bool} {block : Block} {unread : List Block}
    (hunread : s.unread = block :: unread) :
    RelayMove s (.read fault delivered) { s with unread }
      (publishChange crates toJson cipher (changeIn subscription.nodeId .payload block fault)
        delivered)
  | streamFailed {lost : ℕ} :
    RelayMove s (.streamFailed lost) { s with unread := s.unread.drop lost } []
  | streamEnded : RelayMove s .streamEnded { s with watching := false } []

variable {crates toJson subscription cipher} {s s' : Relay} {e : RelayEvent}
  {h o : List RelayObservation}

theorem relayMove_of_relayStep
    (hstep : relayStep crates toJson subscription cipher s e = some (s', o)) :
    RelayMove crates toJson subscription cipher s e s' o := by
  cases e with
  | arrive payload nonces submission =>
    rw [relayStep] at hstep
    split_ifs at hstep with hidle
    have heq := Option.some.inj hstep
    unfold Relay.take at heq
    split at heq
    · obtain ⟨rfl, rfl⟩ := Prod.mk.inj heq
      exact .refuse
    · obtain ⟨rfl, rfl⟩ := Prod.mk.inj heq
      exact .refuse
    · next nodeData hstore =>
      obtain ⟨rfl, rfl⟩ := Prod.mk.inj heq
      exact .submit hidle hstore (.inl rfl)
    · next nodeData hstore =>
      obtain ⟨rfl, rfl⟩ := Prod.mk.inj heq
      exact .submit hidle hstore (.inr rfl)
  | finalize items =>
    obtain ⟨d, hitems, heq⟩ := Option.map_eq_some_iff.mp hstep
    obtain ⟨rfl, rfl⟩ := Prod.mk.inj heq
    exact .finalize hitems
  | drop id =>
    obtain ⟨rfl, rfl⟩ := Prod.mk.inj (Option.some.inj hstep)
    refine .drop ?_
    split_ifs with hpool
    · exact .inl hpool
    · exact .inr rfl
  | settle =>
    rw [relayStep] at hstep
    split at hstep
    · next id outcome hfollowing =>
      obtain ⟨rfl, rfl⟩ := Prod.mk.inj (Option.some.inj hstep)
      exact .settle hfollowing (by simp)
    · exact absurd hstep (by simp)
  | cut =>
    rw [relayStep] at hstep
    split at hstep
    · obtain ⟨rfl, rfl⟩ := Prod.mk.inj (Option.some.inj hstep)
      exact .cut
    · exact absurd hstep (by simp)
  | read fault delivered =>
    rw [relayStep] at hstep
    split at hstep
    · next block unread hunread =>
      split_ifs at hstep
      obtain ⟨rfl, rfl⟩ := Prod.mk.inj (Option.some.inj hstep)
      exact .read hunread
    · exact absurd hstep (by simp)
  | streamFailed lost =>
    obtain ⟨rfl, rfl⟩ := Prod.mk.inj (Option.some.inj hstep)
    exact .streamFailed
  | streamEnded =>
    obtain ⟨rfl, rfl⟩ := Prod.mk.inj (Option.some.inj hstep)
    exact .streamEnded

/-! ## Parts of a history -/

def received (h : List RelayObservation) : List Bytes :=
  h.filterMap fun
    | .received payload => some payload
    | _ => none

def submitted (h : List RelayObservation) : List (ℕ × Bytes) :=
  h.filterMap fun
    | .submitted id nodeData => some (id, nodeData)
    | _ => none

/-- The transactions submitted that the chain has executed. -/
def landed (h : List RelayObservation) : List (ℕ × Bytes) :=
  h.filterMap fun
    | .landed id nodeData => some (id, nodeData)
    | _ => none

def blocks (h : List RelayObservation) : List Block :=
  h.filterMap fun
    | .finalized block => some block
    | _ => none

/-- What was published, with the number of the block that it is from. -/
def publications (h : List RelayObservation) : List (ℕ × Bytes) :=
  h.filterMap fun
    | .published number data => some (number, data)
    | _ => none

section

variable (h k : List RelayObservation)

@[simp] theorem received_append : received (h ++ k) = received h ++ received k :=
  List.filterMap_append

@[simp] theorem submitted_append : submitted (h ++ k) = submitted h ++ submitted k :=
  List.filterMap_append

@[simp] theorem landed_append : landed (h ++ k) = landed h ++ landed k := List.filterMap_append

@[simp] theorem blocks_append : blocks (h ++ k) = blocks h ++ blocks k := List.filterMap_append

@[simp] theorem publications_append :
    publications (h ++ k) = publications h ++ publications k := List.filterMap_append

end

theorem Relay.seal_shows (s : Relay) (d : Draft) :
    received (s.seal d).2 = [] ∧ submitted (s.seal d).2 = [] ∧ landed (s.seal d).2 = d.landed ∧
      blocks (s.seal d).2 = [⟨s.number, d.events, d.values⟩] ∧ publications (s.seal d).2 = [] := by
  rw [Relay.seal]
  simp only [received_append, submitted_append, landed_append, blocks_append, publications_append]
  simp [received, submitted, landed, blocks, publications, List.filterMap_map]

variable (crates toJson cipher) in
/-- What is made of a block shows publications only. -/
theorem publishChange_shows (change : Except Cps.Error (Option Change)) (delivered : Bool) :
    received (publishChange crates toJson cipher change delivered) = [] ∧
      submitted (publishChange crates toJson cipher change delivered) = [] ∧
      landed (publishChange crates toJson cipher change delivered) = [] ∧
      blocks (publishChange crates toJson cipher change delivered) = [] := by
  unfold publishChange
  split
  · split
    · split_ifs <;> exact ⟨rfl, rfl, rfl, rfl⟩
    · exact ⟨rfl, rfl, rfl, rfl⟩
  · exact ⟨rfl, rfl, rfl, rfl⟩
  · exact ⟨rfl, rfl, rfl, rfl⟩

/-! ## What is published

A block shows the publish entry one thing, the payload that it left the node with, and only if
something in it has set the payload.  So what is published is a function of the blocks that were
read.  What is lost is lost here: two settings in one block are one, a block that cannot be read is
passed over, and the broker may not take what it is given. -/

/-- The payload that the block has left the node with, if it has set it. -/
def Block.setting (node : UInt64) (block : Block) : Option Bytes :=
  if ⟨.payload, node⟩ ∈ block.events then block.values .payload node else none

variable (crates toJson cipher) in
/-- What is to be published for the block. -/
def Block.publication (node : UInt64) (block : Block) : Option (ℕ × Bytes) :=
  ((block.setting node).bind (published crates toJson cipher)).map fun data => (block.number, data)

/-- The watcher reads all blocks, and all it publishes reaches the broker. -/
def RelayEvent.Reads : RelayEvent → Prop
  | .read fault delivered => fault = none ∧ delivered = true
  | .streamFailed _ => False
  | _ => True

variable (crates toJson cipher) in
theorem publications_publishChange (node : UInt64) (block : Block) (fault : Option ReadFault)
    (delivered : Bool) :
    publications (publishChange crates toJson cipher (changeIn node .payload block fault)
        delivered) <+ (block.publication crates toJson cipher node).toList ∧
      (RelayEvent.Reads (.read fault delivered) →
        publications (publishChange crates toJson cipher (changeIn node .payload block fault)
          delivered) = (block.publication crates toJson cipher node).toList) := by
  have hgood : publications (publishChange crates toJson cipher
      (changeIn node .payload block none) true) =
        (block.publication crates toJson cipher node).toList := by
    unfold changeIn Block.publication Block.setting
    dsimp only
    split_ifs with hset
    · cases hvalue : block.values .payload node with
      | none => rfl
      | some nodeData =>
        cases hdata : published crates toJson cipher nodeData with
        | none => simp [publishChange, publications, hdata]
        | some data => simp [publishChange, publications, hdata]
    · rfl
  refine ⟨?_, fun ⟨hfault, hdelivered⟩ => by rw [hfault, hdelivered, hgood]⟩
  have hless : ∀ change, publications (publishChange crates toJson cipher change delivered) <+
      publications (publishChange crates toJson cipher change true) := by
    intro change
    unfold publishChange
    cases delivered with
    | true => exact List.Sublist.refl _
    | false =>
      split
      · split
        · exact List.nil_sublist _
        · exact List.Sublist.refl _
      · exact List.Sublist.refl _
      · exact List.Sublist.refl _
  refine (hless _).trans ?_
  rcases fault with - | text | - | text
  · rw [hgood]
  · exact List.nil_sublist _
  · exact List.nil_sublist _
  · unfold changeIn
    dsimp only
    split_ifs <;> exact List.nil_sublist _

variable (crates toJson cipher) in
/-- Blocks are read in their order, and published once at most. -/
structure Read (node : UInt64) (es : List RelayEvent) (h : List RelayObservation) (s : Relay) :
    Prop where
  numbers : (blocks h).map Block.number = List.range s.number
  read : ∃ past, blocks h = past ++ s.unread ∧
    publications h <+ past.filterMap (Block.publication crates toJson cipher node) ∧
    ((∀ e ∈ es, e.Reads) →
      publications h = past.filterMap (Block.publication crates toJson cipher node))

theorem Read.step {es : List RelayEvent}
    (r : Read crates toJson cipher subscription.nodeId es h s)
    (hmove : RelayMove crates toJson subscription cipher s e s' o) :
    Read crates toJson cipher subscription.nodeId (es ++ [e]) (h ++ o) s' := by
  obtain ⟨past, hpast, hsub, hall⟩ := r.read
  have hquiet : ∀ {o' : List RelayObservation} {t : Relay}, blocks o' = [] →
      publications o' = [] → t.number = s.number → t.unread = s.unread →
      Read crates toJson cipher subscription.nodeId (es ++ [e]) (h ++ o') t := by
    intro o' t hblocks hpublications hnumber hunread
    refine ⟨?_, past, ?_, ?_, fun hreads => ?_⟩
    · rw [blocks_append, hblocks, List.append_nil, hnumber]
      exact r.numbers
    · rw [blocks_append, hblocks, List.append_nil, hunread]
      exact hpast
    · rw [publications_append, hpublications, List.append_nil]
      exact hsub
    · rw [publications_append, hpublications, List.append_nil]
      exact hall fun e he => hreads e (List.mem_append_left _ he)
  cases hmove with
  | refuse => exact hquiet rfl rfl rfl rfl
  | submit => exact hquiet rfl rfl rfl rfl
  | drop => exact hquiet rfl rfl rfl rfl
  | settle => exact hquiet rfl rfl rfl rfl
  | cut => exact hquiet rfl rfl rfl rfl
  | streamEnded => exact hquiet rfl rfl rfl rfl
  | @finalize items d hitems =>
    obtain ⟨-, -, -, hblocks, hpublications⟩ := s.seal_shows d
    refine ⟨?_, past, ?_, ?_, fun hreads => ?_⟩
    · rw [blocks_append, hblocks, List.map_append, r.numbers]
      exact List.range_succ.symm
    · rw [blocks_append, hblocks, hpast, List.append_assoc]
      rfl
    · rw [publications_append, hpublications, List.append_nil]
      exact hsub
    · rw [publications_append, hpublications, List.append_nil]
      exact hall fun e he => hreads e (List.mem_append_left _ he)
  | @read fault delivered block unread hunread =>
    obtain ⟨-, -, -, hblocks⟩ := publishChange_shows crates toJson cipher
      (changeIn subscription.nodeId .payload block fault) delivered
    obtain ⟨hsome, hgood⟩ := publications_publishChange crates toJson cipher
      subscription.nodeId block fault delivered
    have hone : [block].filterMap (Block.publication crates toJson cipher subscription.nodeId) =
        (block.publication crates toJson cipher subscription.nodeId).toList := by
      cases hb : block.publication crates toJson cipher subscription.nodeId <;>
        simp [List.filterMap, hb]
    refine ⟨?_, past ++ [block], ?_, ?_, fun hreads => ?_⟩
    · rw [blocks_append, hblocks, List.append_nil]
      exact r.numbers
    · rw [blocks_append, hblocks, List.append_nil, hpast, hunread, List.append_assoc]
      rfl
    · rw [publications_append, List.filterMap_append, hone]
      exact hsub.append hsome
    · rw [publications_append, List.filterMap_append, hone,
        hgood (hreads _ (List.mem_append_right _ List.mem_cons_self)),
        hall fun e he => hreads e (List.mem_append_left _ he)]
  | @streamFailed lost =>
    refine ⟨?_, past ++ s.unread.take lost, ?_, ?_, fun hreads => ?_⟩
    · rw [List.append_nil]
      exact r.numbers
    · rw [List.append_nil, hpast, List.append_assoc, List.take_append_drop]
    · rw [List.append_nil, List.filterMap_append]
      exact hsub.trans (List.sublist_append_left _ _)
    · exact (hreads _ (List.mem_append_right _ List.mem_cons_self)).elim

/-! ## What is submitted

Not every message leads to a transaction: it may not be possible to store it, or to submit it.  So
the messages of the transactions are some of those received, in their order. -/

variable (crates subscription) in
/-- Transactions are submitted in the order of their messages, with what is stored for these. -/
structure Sent (h : List RelayObservation) (s : Relay) : Prop where
  ids : (submitted h).map Prod.fst = List.range s.nextId
  stored : ∃ sent : List (Bytes × Bytes), sent.map Prod.fst <+ received h ∧
    sent.map Prod.snd = (submitted h).map Prod.snd ∧
    ∀ p ∈ sent, ∃ nonces, subscription.store crates nonces p.1 = .ok p.2

theorem Sent.step (t : Sent crates subscription h s)
    (hmove : RelayMove crates toJson subscription cipher s e s' o) :
    Sent crates subscription (h ++ o) s' := by
  obtain ⟨sent, hreceived, hsubmitted, hstore⟩ := t.stored
  have hquiet : ∀ {o' : List RelayObservation} {s'' : Relay}, submitted o' = [] →
      s''.nextId = s.nextId → Sent crates subscription (h ++ o') s'' := by
    intro o' s'' ho hid
    refine ⟨?_, sent, ?_, ?_, hstore⟩
    · rw [submitted_append, ho, List.append_nil, hid]
      exact t.ids
    · rw [received_append]
      exact hreceived.trans (List.sublist_append_left _ _)
    · rw [submitted_append, ho, List.append_nil]
      exact hsubmitted
  cases hmove with
  | refuse => exact hquiet rfl rfl
  | drop | settle | cut | streamFailed | streamEnded => exact hquiet rfl rfl
  | @finalize items d hitems => exact hquiet (s.seal_shows d).2.1 rfl
  | @read fault delivered block unread hunread =>
    exact hquiet (publishChange_shows crates toJson cipher _ delivered).2.1 rfl
  | @submit payload nodeData nonces submission following hidle hstored hfollowing =>
    have ho : submitted [.received payload, .submitted s.nextId nodeData] =
        [(s.nextId, nodeData)] := rfl
    refine ⟨?_, sent ++ [(payload, nodeData)], ?_, ?_, fun p hp => ?_⟩
    · rw [submitted_append, ho, List.map_append, t.ids]
      exact List.range_succ.symm
    · rw [received_append, List.map_append]
      exact hreceived.append (List.Sublist.refl _)
    · rw [submitted_append, ho, List.map_append, List.map_append, hsubmitted]
      rfl
    · rcases List.mem_append.mp hp with hp | hp
      · exact hstore p hp
      · obtain rfl := List.mem_singleton.mp hp
        exact ⟨nonces, hstored⟩

/-! ## One message at a time

The entry takes the next message only when it knows what has become of the last transaction.  So
as long as it does not lose track there is at most one transaction in the pool that is in no block
yet, and a block executes one of them at most (`Draft.Single`).  With nobody else writing the node
the setting of the block is then the message that landed, and no two messages share a block. -/

/-- Nobody else writes the payload of the node. -/
def RelayEvent.Alone (node : UInt64) : RelayEvent → Prop
  | .finalize items => ∀ item ∈ items, ∀ value, item ≠ .other .payload node value
  | _ => True

/-- The entry does not lose track of its transaction. -/
def RelayEvent.Follows : RelayEvent → Prop
  | .arrive _ _ submission => submission ≠ .lost
  | .cut => False
  | _ => True

/-- At most one transaction is in no block, and that is the one that is followed. -/
def Followed (pool : List (ℕ × Bytes)) (following : Option Follow) : Prop :=
  pool = [] ∨ ∃ id nodeData, pool = [(id, nodeData)] ∧ following = some ⟨id, none⟩

/-- The block so far has set the node at most once, and to what landed. -/
structure Draft.Single (node : UInt64) (pool : List (ℕ × Bytes)) (d : Draft) : Prop where
  followed : Followed d.pool d.following
  landed : d.landed ++ d.pool <+ pool
  setting : Block.setting node ⟨0, d.events, d.values⟩ = (d.landed.map Prod.snd).head?

theorem Followed.length_le {pool : List (ℕ × Bytes)} {following : Option Follow}
    (h : Followed pool following) : pool.length ≤ 1 := by
  rcases h with rfl | ⟨id, nodeData, rfl, -⟩ <;> simp

theorem Draft.Single.add {node : UInt64} {pool : List (ℕ × Bytes)} {d d' : Draft} {item : Item}
    (hpool : pool.length ≤ 1) (hd : d.Single node pool)
    (halone : ∀ value, item ≠ .other .payload node value) (hadd : d.add node item = some d') :
    d'.Single node pool := by
  cases item with
  | other field n value =>
    obtain rfl := Option.some.inj hadd
    refine ⟨hd.followed, hd.landed, ?_⟩
    have hother : (⟨.payload, node⟩ : FieldSet) ≠ ⟨field, n⟩ := by
      intro heq
      obtain ⟨rfl, rfl⟩ := FieldSet.mk.inj heq
      exact halone value rfl
    rw [← hd.setting, Block.setting, Block.setting]
    have hmem : (⟨.payload, node⟩ : FieldSet) ∈ d.events ++ [⟨field, n⟩] ↔
        (⟨.payload, node⟩ : FieldSet) ∈ d.events := by
      rw [List.mem_append, List.mem_singleton]
      exact or_iff_left hother
    have hvalue : d.values.set field n value .payload node = d.values .payload node :=
      if_neg fun ⟨hfield, hnode⟩ => hother (by rw [hfield, hnode])
    simp only [hmem, hvalue]
  | own id granted =>
    obtain ⟨nodeData, hlookup, heq⟩ := Option.map_eq_some_iff.mp hadd
    -- the transaction is the only one, and nothing has landed before it
    rcases hd.followed with hnone | ⟨id', nodeData', hone, hfollowing⟩
    · rw [hnone] at hlookup
      exact absurd hlookup (by simp)
    · have hlanded : d.landed = [] := by
        have hlength := hd.landed.length_le
        rw [hone, List.length_append, List.length_singleton] at hlength
        exact List.length_eq_zero_iff.mp (by omega)
      have hsub := hd.landed
      rw [hlanded, hone, List.nil_append] at hsub
      rw [hone, List.lookup_cons] at hlookup
      split at hlookup
      · next hid =>
        obtain rfl := Option.some.inj hlookup
        obtain rfl := eq_of_beq hid
        have hempty : d.pool.filter (·.1 ≠ id) = [] := by simp [hone]
        dsimp only at heq
        split_ifs at heq
        · subst heq
          refine ⟨.inl hempty, ?_, ?_⟩
          · show d.landed ++ [(id, nodeData')] ++ d.pool.filter (·.1 ≠ id) <+ pool
            rw [hempty, hlanded]
            exact hsub
          · rw [Block.setting, if_pos (List.mem_append_right _ List.mem_cons_self), hlanded]
            exact if_pos ⟨rfl, rfl⟩
        · subst heq
          refine ⟨.inl hempty, ?_, hd.setting⟩
          show d.landed ++ d.pool.filter (·.1 ≠ id) <+ pool
          rw [hempty, hlanded]
          exact List.nil_sublist _
      · exact absurd hlookup (by simp)

theorem Draft.Single.addAll {node : UInt64} {pool : List (ℕ × Bytes)} {d d' : Draft}
    {items : List Item} (hpool : pool.length ≤ 1) (hd : d.Single node pool)
    (halone : ∀ item ∈ items, ∀ value, item ≠ .other .payload node value)
    (hadd : d.addAll node items = some d') : d'.Single node pool := by
  induction items generalizing d with
  | nil =>
    obtain rfl := Option.some.inj hadd
    exact hd
  | cons item items ih =>
    obtain ⟨d₁, hitem, hitems⟩ := Option.bind_eq_some_iff.mp hadd
    exact ih (hd.add hpool (halone item List.mem_cons_self) hitem)
      (fun item hmem => halone item (List.mem_cons_of_mem _ hmem)) hitems

/-- Every message that landed has a block of its own. -/
structure Separate (node : UInt64) (h : List RelayObservation) (s : Relay) : Prop where
  followed : Followed s.pool s.following
  inOrder : landed h ++ s.pool <+ submitted h
  settings : (blocks h).filterMap (Block.setting node) = (landed h).map Prod.snd

theorem Separate.step (p : Separate subscription.nodeId h s)
    (halone : e.Alone subscription.nodeId) (hfollows : e.Follows)
    (hmove : RelayMove crates toJson subscription cipher s e s' o) :
    Separate subscription.nodeId (h ++ o) s' := by
  have hquiet : ∀ {o' : List RelayObservation} {t : Relay}, submitted o' = [] → landed o' = [] →
      blocks o' = [] → Followed t.pool t.following → t.pool <+ s.pool →
      Separate subscription.nodeId (h ++ o') t := by
    intro o' t hsubmitted hlanded hblocks hfollowed hpool
    refine ⟨hfollowed, ?_, ?_⟩
    · rw [landed_append, submitted_append, hlanded, hsubmitted, List.append_nil, List.append_nil]
      exact ((List.Sublist.refl _).append hpool).trans p.inOrder
    · rw [blocks_append, landed_append, hlanded, hblocks, List.append_nil, List.append_nil]
      exact p.settings
  cases hmove with
  | refuse => exact hquiet rfl rfl rfl p.followed (List.Sublist.refl _)
  | streamFailed | streamEnded => exact hquiet rfl rfl rfl p.followed (List.Sublist.refl _)
  | cut => exact hfollows.elim
  | @read fault delivered block unread hunread =>
    obtain ⟨-, hsubmitted, hlanded, hblocks⟩ := publishChange_shows crates toJson cipher
      (changeIn subscription.nodeId .payload block fault) delivered
    exact hquiet hsubmitted hlanded hblocks p.followed (List.Sublist.refl _)
  | @settle follow hfollowing houtcome =>
    -- an outcome is known only of a transaction that has left the pool
    refine hquiet rfl rfl rfl (.inl ?_) (List.Sublist.refl _)
    rcases p.followed with hnone | ⟨id, nodeData, -, hsome⟩
    · exact hnone
    · obtain rfl := Option.some.inj (hfollowing.symm.trans hsome)
      exact absurd rfl houtcome
  | @drop id following hfollowing =>
    refine hquiet rfl rfl rfl ?_ List.filter_sublist
    rcases p.followed with hnone | ⟨id', nodeData, hone, hsome⟩
    · exact .inl (by simp [hnone])
    · by_cases hid : id' = id
      · exact .inl (by simp [hone, hid])
      · refine .inr ⟨id', nodeData, by simp [hone, hid], ?_⟩
        rcases hfollowing with hlookup | hsame
        · rw [hone, List.lookup_cons, beq_eq_false_iff_ne.mpr (Ne.symm hid)] at hlookup
          exact absurd hlookup (by simp)
        · rw [hsame]
          exact hsome
  | @submit payload nodeData nonces submission following hidle hstored hfollowing =>
    have hpool : s.pool = [] := by
      rcases p.followed with hnone | ⟨id, nodeData', -, hsome⟩
      · exact hnone
      · exact absurd (hidle.symm.trans hsome) (by simp)
    have hsome := hfollowing.resolve_left hfollows
    refine ⟨.inr ⟨s.nextId, nodeData, by rw [hpool]; rfl, hsome⟩, ?_, ?_⟩
    · rw [landed_append, submitted_append]
      have horder := p.inOrder
      rw [hpool, List.append_nil] at horder
      show landed h ++ [] ++ (s.pool ++ [(s.nextId, nodeData)]) <+
        submitted h ++ [(s.nextId, nodeData)]
      rw [List.append_nil, hpool, List.nil_append]
      exact horder.append (List.Sublist.refl _)
    · rw [blocks_append, landed_append]
      show (blocks h ++ []).filterMap _ = (landed h ++ []).map Prod.snd
      rw [List.append_nil, List.append_nil]
      exact p.settings
  | @finalize items d hitems =>
    obtain ⟨-, hsubmitted, hlanded, hblocks, -⟩ := s.seal_shows d
    have hsingle : d.Single subscription.nodeId s.pool :=
      Draft.Single.addAll p.followed.length_le
        ⟨p.followed, by rw [Relay.draft, List.nil_append], rfl⟩ halone hitems
    have hone : d.landed.length ≤ 1 := by
      have hlength := hsingle.landed.length_le
      have hpool := p.followed.length_le
      rw [List.length_append] at hlength
      omega
    refine ⟨hsingle.followed, ?_, ?_⟩
    · rw [landed_append, submitted_append, hsubmitted, hlanded, List.append_nil,
        List.append_assoc]
      exact ((List.Sublist.refl _).append hsingle.landed).trans p.inOrder
    · rw [blocks_append, landed_append, hblocks, hlanded, List.filterMap_append, p.settings,
        List.map_append]
      congr 1
      have hsetting : Block.setting subscription.nodeId ⟨s.number, d.events, d.values⟩ =
          (d.landed.map Prod.snd).head? := hsingle.setting
      match hd : d.landed, hone with
      | [], _ =>
        rw [hd] at hsetting
        simp [hsetting]
      | [q], _ =>
        rw [hd] at hsetting
        simp [hsetting]

/-! ## The relay -/

variable (crates toJson subscription cipher) in
/-- What the two entries make of the messages of a topic. -/
structure Relayed (es : List RelayEvent) (h : List RelayObservation) (s : Relay) : Prop where
  /-- Transactions are submitted for messages in their order, and carry what is stored for
  these. -/
  sent : Sent crates subscription h s
  /-- What is published is, block after block, what the payload of the node was after a block
  that set it; and all of it, if nothing fails on the way. -/
  read : Read crates toJson cipher subscription.nodeId es h s
  /-- If the entry writes the node alone and keeps track of its transactions, then a message
  that landed is the only one that its block stores, and they land in their order. -/
  separate : (∀ e ∈ es, e.Alone subscription.nodeId) → (∀ e ∈ es, e.Follows) →
    Separate subscription.nodeId h s
  /-- Then, if nothing fails on the way, all that landed is published, once and in order, when
  all blocks were read. -/
  complete : (∀ e ∈ es, e.Alone subscription.nodeId) → (∀ e ∈ es, e.Follows) →
    (∀ e ∈ es, e.Reads) → s.unread = [] →
    (publications h).map Prod.snd =
      ((landed h).map Prod.snd).filterMap (published crates toJson cipher)
  /-- And texts that do not begin with an encrypted message come out as they went in, in their
  order and none twice, whatever fails on the way. -/
  verbatim : (∀ e ∈ es, e.Alone subscription.nodeId) → (∀ e ∈ es, e.Follows) →
    subscription.receiverPublic = none →
    (∀ payload ∈ received h, IsText payload ∧ EncryptedMessage.decode payload = none) →
    (publications h).map Prod.snd <+ received h

theorem map_filterMap_publication (node : UInt64) (bs : List Block) :
    (bs.filterMap (Block.publication crates toJson cipher node)).map Prod.snd =
      (bs.filterMap (Block.setting node)).filterMap (published crates toJson cipher) := by
  rw [List.map_filterMap, List.filterMap_filterMap]
  refine List.filterMap_congr fun b _ => ?_
  cases hset : b.setting node with
  | none => simp [Block.publication, hset]
  | some value =>
    cases hdata : published crates toJson cipher value <;> simp [Block.publication, hset, hdata]

/-- **The relay is faithful.**  In every run of the two entries, with any writers beside them, any
failures of the chain and any pace of its blocks: transactions carry what is stored for messages
that arrived, in their order; what is published is, block after block, what the payload of the node
was after a block that set it; and where the entry writes the node alone, and keeps track of its
transactions, texts come out as they went in, in their order and none twice. -/
theorem relay_faithful (crates : Crates) (toJson : EncryptedMessage → Except String String)
    (subscription : Subscription) (cipher : Option Signer) (values : Values)
    (es : List RelayEvent) (s : Relay) (h : List RelayObservation)
    (hrun : (relay crates toJson subscription cipher).exec (.start values) es = some (s, h)) :
    Relayed crates toJson subscription cipher es h s := by
  have hall : Sent crates subscription h s ∧
      Read crates toJson cipher subscription.nodeId es h s ∧
      ((∀ e ∈ es, e.Alone subscription.nodeId) → (∀ e ∈ es, e.Follows) →
        Separate subscription.nodeId h s) := by
    refine EventMachine.exec_induction (P := fun es h s => Sent crates subscription h s ∧
      Read crates toJson cipher subscription.nodeId es h s ∧
      ((∀ e ∈ es, e.Alone subscription.nodeId) → (∀ e ∈ es, e.Follows) →
        Separate subscription.nodeId h s)) ?_ ?_ hrun
    · refine ⟨⟨rfl, [], List.Sublist.refl _, rfl, fun p hp => absurd hp List.not_mem_nil⟩,
        ⟨rfl, [], rfl, List.Sublist.refl _, fun _ => rfl⟩,
        fun _ _ => ⟨.inl rfl, List.Sublist.refl _, rfl⟩⟩
    · intro es h s e s' o _ ⟨hsent, hread, hseparate⟩ hstep
      have hmove := relayMove_of_relayStep hstep
      refine ⟨hsent.step hmove, hread.step hmove, fun halone hfollows => ?_⟩
      exact (hseparate (fun e he => halone e (List.mem_append_left _ he))
        fun e he => hfollows e (List.mem_append_left _ he)).step
          (halone e (List.mem_append_right _ List.mem_cons_self))
          (hfollows e (List.mem_append_right _ List.mem_cons_self)) hmove
  obtain ⟨hsent, hread, hseparate⟩ := hall
  refine ⟨hsent, hread, hseparate, ?_, ?_⟩
  · intro halone hfollows hreads hunread
    obtain ⟨past, hpast, -, hpublished⟩ := hread.read
    rw [hunread, List.append_nil] at hpast
    rw [hpublished hreads, map_filterMap_publication, ← hpast,
      (hseparate halone hfollows).settings]
  · intro halone hfollows hplain htexts
    obtain ⟨past, hpast, hpublished, -⟩ := hread.read
    have hsettings := (hseparate halone hfollows).settings
    obtain ⟨sent, hreceived, hsubmitted, hstore⟩ := hsent.stored
    -- what is submitted for a text is the text
    have hsame : sent.map Prod.snd = sent.map Prod.fst := by
      refine List.map_congr_left fun p hp => ?_
      obtain ⟨nonces, hp'⟩ := hstore p hp
      have hmem := hreceived.subset (List.mem_map_of_mem hp)
      exact Except.ok.inj (hp'.symm.trans (store_text hplain (htexts _ hmem).1))
    have hlanded : (landed h).map Prod.snd <+ received h := by
      have horder := ((List.sublist_append_left _ _).trans
        (hseparate halone hfollows).inOrder).map Prod.snd
      rw [← hsubmitted, hsame] at horder
      exact horder.trans hreceived
    have hpublication : (publications h).map Prod.snd <+
        ((landed h).map Prod.snd).filterMap (published crates toJson cipher) := by
      rw [← hsettings, hpast, List.filterMap_append, List.filterMap_append]
      refine ((hpublished.map Prod.snd).trans ?_).trans (List.sublist_append_left _ _)
      rw [map_filterMap_publication]
    refine hpublication.trans ?_
    have hid : ((landed h).map Prod.snd).filterMap (published crates toJson cipher) =
        (landed h).map Prod.snd := by
      conv_rhs => rw [← List.filterMap_some (l := (landed h).map Prod.snd)]
      refine List.filterMap_congr fun nodeData hmem => ?_
      obtain ⟨htext, hmessage⟩ := htexts _ (hlanded.subset hmem)
      exact published_of_text hmessage htext.1
    rw [hid]
    exact hlanded

/-- Two readings arrive, and a third after the entry has lost its access; the block of the
first is read, and the one of the second cannot be. -/
def readingsRun : List RelayEvent :=
  [.arrive (Utf8.encode "21.5") zeroNonces .accepted, .finalize [.other .metadata 5 none],
    .finalize [.own 0 true, .other .payload 6 none], .settle, .read none true,
    .arrive (Utf8.encode "22.0") zeroNonces .accepted, .read none true, .finalize [.own 1 true],
    .settle, .read (some (.storage "timeout")) true,
    .arrive (Utf8.encode "22.5") zeroNonces .accepted, .finalize [.own 2 false], .settle,
    .read none true]

theorem relay_faithful_readingsRun :
    ∃ s h, (relay (devCrates []) (fun _ => .ok "") ⟨5, none, none, none⟩ none).exec
        (.start fun _ _ => none) readingsRun = some (s, h) ∧
      publications h = [(1, Utf8.encode "21.5")] ∧ (landed h).length = 2 ∧
      Relayed (devCrates []) (fun _ => .ok "") ⟨5, none, none, none⟩ none readingsRun h s := by
  have hshown : ((relay (devCrates []) (fun _ => .ok "") ⟨5, none, none, none⟩ none).exec
      (.start fun _ _ => none) readingsRun).map
        (fun p => (publications p.2, (landed p.2).length)) =
          some ([(1, Utf8.encode "21.5")], 2) := by
    decide +kernel
  obtain ⟨⟨s, h⟩, hrun, hh⟩ := Option.map_eq_some_iff.mp hshown
  obtain ⟨hpublished, hlanded⟩ := Prod.mk.inj hh
  exact ⟨s, h, hrun, hpublished, hlanded,
    relay_faithful (devCrates []) _ ⟨5, none, none, none⟩ none _ readingsRun s h hrun⟩

end

end Bridge
end Robins
