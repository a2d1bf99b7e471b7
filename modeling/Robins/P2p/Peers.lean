import Mathlib.Data.List.AList
import Robins.Lib.Presence

/-!
# Connected peers and readiness

The GossipSub node counts the connections of each peer, since a peer may have several, and is ready
while enough distinct peers are connected.  Identifiers and addresses of peers are whatever the
network library uses for them.

## The history

What the registry holds is what the history of connections says: the peers that are present, with
their open connections, since the first connection of their present stay.  `Presence` has this for
anything that comes and goes several times; a close that matches no open is not part of such a
history, and the library does not report one.

## The registry

`Registers` relates the registry with the history, an established and a closed connection keep it,
and so it holds after every run (`follows_run`).  An entry leaves the map with the last connection
of its peer, and a peer that comes back begins a new stay.  The readiness flag is set anew after
every change, so it says of the current history whether it has enough peers, and so does the
gauge.
-/

namespace Robins
namespace P2p

open Presence

/-! ## The registry -/

/-- What is kept of a connected peer. -/
structure PeerEntry (Multiaddr : Type) where
  connections : ℕ
  address : Option Multiaddr
  sinceMs : ℕ

abbrev PeerRegistry (PeerId Multiaddr : Type) [DecidableEq PeerId] :=
  AList fun _ : PeerId => PeerEntry Multiaddr

variable {PeerId Multiaddr : Type} [DecidableEq PeerId]

def PeerRegistry.onConnected (table : PeerRegistry PeerId Multiaddr) (peer : PeerId)
    (address : Option Multiaddr) (nowMs : ℕ) : PeerRegistry PeerId Multiaddr :=
  match table.lookup peer with
  | some entry =>
    table.insert peer { entry with
      connections := entry.connections + 1
      address := if address.isSome then address else entry.address }
  | none => table.insert peer ⟨1, address, nowMs⟩

/-- Record a closed connection; the last one removes the peer. -/
def PeerRegistry.onDisconnected (table : PeerRegistry PeerId Multiaddr) (peer : PeerId) :
    PeerRegistry PeerId Multiaddr :=
  match table.lookup peer with
  | some entry =>
    let connections := entry.connections - 1
    if connections = 0 then table.erase peer else table.insert peer { entry with connections }
  | none => table

/-- Number of distinct connected peers. -/
def PeerRegistry.connectedCount (table : PeerRegistry PeerId Multiaddr) : ℕ := table.keys.length

/-! ## The node -/

/-- The running GossipSub node, as far as readiness is concerned: the registry, the threshold,
the readiness flag if there is one to keep, and the gauge of connected peers. -/
structure GossipNode (PeerId Multiaddr : Type) [DecidableEq PeerId] where
  peers : PeerRegistry PeerId Multiaddr
  minConnectedPeers : ℕ
  ready : Option Bool
  connectedPeers : ℕ

/-- What the swarm reports. -/
inductive SwarmEvent (PeerId Multiaddr : Type) where
  | connectionEstablished (peer : PeerId) (remote : Multiaddr) (nowMs : ℕ)
  | connectionClosed (peer : PeerId)
  /-- A new address to listen on, a message, or anything else. -/
  | other

def GossipNode.new (minConnectedPeers : ℕ) (ready : Option Bool) : GossipNode PeerId Multiaddr :=
  ⟨∅, minConnectedPeers, ready, 0⟩

/-- Recompute the gauge and the readiness flag. -/
def GossipNode.refreshReadiness (node : GossipNode PeerId Multiaddr) :
    GossipNode PeerId Multiaddr :=
  let count := node.peers.connectedCount
  { node with
    connectedPeers := count
    ready := node.ready.map fun _ => decide (node.minConnectedPeers ≤ count) }

def GossipNode.onSwarmEvent (node : GossipNode PeerId Multiaddr) :
    SwarmEvent PeerId Multiaddr → GossipNode PeerId Multiaddr
  | .connectionEstablished peer remote nowMs =>
    { node with peers := node.peers.onConnected peer (some remote) nowMs }.refreshReadiness
  | .connectionClosed peer => { node with peers := node.peers.onDisconnected peer }.refreshReadiness
  | .other => node

/-- Run the node through a sequence of events. -/
def GossipNode.run (node : GossipNode PeerId Multiaddr) (es : List (SwarmEvent PeerId Multiaddr)) :
    GossipNode PeerId Multiaddr :=
  es.foldl GossipNode.onSwarmEvent node.refreshReadiness

/-! ## What the history says -/

/-- The change of a peer's presence that an event is. -/
def SwarmEvent.change : SwarmEvent PeerId Multiaddr → Option (Change PeerId)
  | .connectionEstablished peer _ nowMs => some (.opened peer nowMs)
  | .connectionClosed peer => some (.closed peer)
  | .other => none

/-- The history of connections. -/
def changes (es : List (SwarmEvent PeerId Multiaddr)) : List (Change PeerId) :=
  es.filterMap SwarmEvent.change

/-- An entry has the open connections and the beginning of the stay; a peer without an entry
has no open connection. -/
def Recorded (h : List (Change PeerId)) (peer : PeerId) : Option (PeerEntry Multiaddr) → Prop
  | some entry => closes peer h + entry.connections = opens peer h ∧ 0 < entry.connections ∧
      Since peer h entry.sinceMs
  | none => opens peer h = closes peer h

/-- The registry is that of the history. -/
def Registers (h : List (Change PeerId)) (table : PeerRegistry PeerId Multiaddr) : Prop :=
  ∀ peer, Recorded h peer (table.lookup peer)

section

variable {h : List (Change PeerId)} {table : PeerRegistry PeerId Multiaddr} {peer : PeerId}

theorem Registers.mem_iff (hr : Registers h table) : peer ∈ table ↔ Present peer h := by
  have hat := hr peer
  rw [← AList.lookup_isSome, Present]
  cases hlookup : table.lookup peer with
  | none =>
    rw [hlookup] at hat
    have heq : opens peer h = closes peer h := hat
    rw [heq]
    simp
  | some entry =>
    rw [hlookup] at hat
    obtain ⟨hcount, hpos, -⟩ := hat
    exact iff_of_true rfl (by omega)

theorem Registers.connectedCount_eq (hr : Registers h table) :
    table.connectedCount = (present h).card := by
  have hkeys : table.keys.toFinset = present h := by
    ext peer
    rw [List.mem_toFinset, ← AList.mem_keys, hr.mem_iff, mem_present]
  rw [← hkeys, List.toFinset_card_of_nodup table.keys_nodup, PeerRegistry.connectedCount]

/-- A change of another peer leaves what is recorded of this one. -/
theorem Recorded.other {c : Change PeerId} {slot : Option (PeerEntry Multiaddr)}
    (hrec : Recorded h peer slot) (hne : c.key ≠ peer) : Recorded (h ++ [c]) peer slot := by
  have hopens : opens peer (h ++ [c]) = opens peer h := opens_of_ne hne
  have hcloses : closes peer (h ++ [c]) = closes peer h := closes_of_ne hne
  cases slot with
  | none =>
    show opens peer (h ++ [c]) = closes peer (h ++ [c])
    rw [hopens, hcloses]
    exact hrec
  | some entry =>
    obtain ⟨hcount, hpos, hsince⟩ := hrec
    refine ⟨by rw [hopens, hcloses, hcount], hpos, hsince.snoc ?_⟩
    rw [Present, hopens, hcloses]
    omega

theorem Registers.onConnected (hr : Registers h table) (peer : PeerId)
    (address : Option Multiaddr) (nowMs : ℕ) :
    Registers (h ++ [.opened peer nowMs]) (table.onConnected peer address nowMs) := by
  intro other
  have hat := hr peer
  unfold PeerRegistry.onConnected
  by_cases hother : other = peer
  · subst hother
    cases hlookup : table.lookup other with
    | none =>
      rw [hlookup] at hat
      have heq : opens other h = closes other h := hat
      dsimp only
      rw [AList.lookup_insert]
      refine ⟨by simp [heq], Nat.one_pos, since_opened heq.ge ?_⟩
      rw [Present, heq]
      exact Nat.lt_irrefl _
    | some entry =>
      rw [hlookup] at hat
      obtain ⟨hcount, hpos, hsince⟩ := hat
      dsimp only
      rw [AList.lookup_insert]
      refine ⟨?_, Nat.succ_pos _, hsince.snoc ?_⟩
      · simp
        omega
      · rw [present_opened, if_pos rfl]
        omega
  · have hrec : Recorded (h ++ [.opened peer nowMs]) other (table.lookup other) :=
      (hr other).other (Ne.symm hother)
    cases table.lookup peer with
    | none =>
      dsimp only
      rw [AList.lookup_insert_ne hother]
      exact hrec
    | some entry =>
      dsimp only
      rw [AList.lookup_insert_ne hother]
      exact hrec

theorem Registers.onDisconnected (hr : Registers h table) (hpresent : Present peer h) :
    Registers (h ++ [.closed peer]) (table.onDisconnected peer) := by
  intro other
  obtain ⟨entry, hlookup⟩ := Option.isSome_iff_exists.mp
    (AList.lookup_isSome.mpr (hr.mem_iff.mpr hpresent))
  have hat := hr peer
  rw [hlookup] at hat
  obtain ⟨hcount, hpos, hsince⟩ := hat
  unfold PeerRegistry.onDisconnected
  rw [hlookup]
  dsimp only
  by_cases hother : other = peer
  · subst hother
    split
    · next hzero =>
      rw [AList.lookup_erase]
      show opens other (h ++ [.closed other]) = closes other (h ++ [.closed other])
      simp
      omega
    · next hleft =>
      rw [AList.lookup_insert]
      refine ⟨?_, Nat.pos_of_ne_zero hleft, hsince.snoc ?_⟩
      · simp
        omega
      · rw [present_closed, if_pos rfl]
        omega
  · have hrec : Recorded (h ++ [.closed peer]) other (table.lookup other) :=
      (hr other).other (Ne.symm hother)
    split
    · rw [AList.lookup_erase_ne hother]
      exact hrec
    · rw [AList.lookup_insert_ne hother]
      exact hrec

end

/-! ## Runs -/

section

variable {node : GossipNode PeerId Multiaddr} {es : List (SwarmEvent PeerId Multiaddr)}
  {e : SwarmEvent PeerId Multiaddr}

theorem run_snoc : node.run (es ++ [e]) = (node.run es).onSwarmEvent e := List.foldl_append

omit [DecidableEq PeerId] in
@[simp] theorem changes_snoc (es : List (SwarmEvent PeerId Multiaddr))
    (e : SwarmEvent PeerId Multiaddr) : changes (es ++ [e]) = changes es ++ e.change.toList := by
  rw [changes, List.filterMap_append, changes]
  cases hchange : e.change <;> simp [hchange]

/-- The registry follows the history, and the flag and the gauge the registry. -/
structure Follows (node s : GossipNode PeerId Multiaddr) (h : List (Change PeerId)) : Prop where
  registers : Registers h s.peers
  minConnectedPeers : s.minConnectedPeers = node.minConnectedPeers
  ready : s.ready = node.ready.map fun _ => decide (node.minConnectedPeers ≤ (present h).card)
  connectedPeers : s.connectedPeers = (present h).card

/-- Refreshing makes the flag follow the registry. -/
theorem Follows.refresh {s : GossipNode PeerId Multiaddr} {h h' : List (Change PeerId)}
    (hf : Follows node s h) {table : PeerRegistry PeerId Multiaddr} (hr : Registers h' table) :
    Follows node ({ s with peers := table }.refreshReadiness) h' where
  registers := hr
  minConnectedPeers := hf.minConnectedPeers
  ready := by
    show s.ready.map (fun _ => decide (s.minConnectedPeers ≤ table.connectedCount)) = _
    rw [hf.ready, hf.minConnectedPeers, hr.connectedCount_eq, Option.map_map]
    rfl
  connectedPeers := hr.connectedCount_eq

theorem follows_new (minConnectedPeers : ℕ) (ready : Option Bool) :
    Follows (.new minConnectedPeers ready : GossipNode PeerId Multiaddr)
      ((GossipNode.new minConnectedPeers ready).run []) [] where
  registers _ := rfl
  minConnectedPeers := rfl
  ready := rfl
  connectedPeers := rfl

theorem Follows.step {s : GossipNode PeerId Multiaddr} {h : List (Change PeerId)}
    (hf : Follows node s h) (hm : Matched (h ++ e.change.toList)) :
    Follows node (s.onSwarmEvent e) (h ++ e.change.toList) := by
  cases e with
  | connectionEstablished peer remote nowMs =>
    exact hf.refresh (hf.registers.onConnected peer (some remote) nowMs)
  | connectionClosed peer => exact hf.refresh (hf.registers.onDisconnected hm.present)
  | other =>
    show Follows node s (h ++ [])
    rw [List.append_nil]
    exact hf

theorem follows_run (minConnectedPeers : ℕ) (ready : Option Bool)
    (es : List (SwarmEvent PeerId Multiaddr)) (hm : Matched (changes es)) :
    Follows (.new minConnectedPeers ready) ((GossipNode.new minConnectedPeers ready).run es)
      (changes es) := by
  induction es using List.reverseRecOn with
  | nil => exact follows_new minConnectedPeers ready
  | append_singleton es e ih =>
    rw [changes_snoc] at hm ⊢
    have hbefore : Matched (changes es) := by
      cases hchange : e.change with
      | none =>
        rw [hchange] at hm
        simpa using hm
      | some c =>
        rw [hchange] at hm
        exact hm.of_snoc
    rw [run_snoc]
    exact (ih hbefore).step hm

end

/-- **Readiness tracks peers.**  After any events in which every close matches an earlier open
of its peer, the registry has exactly the peers with more opens than closes, each with its open
connections and the time of the first connection of its present stay; no count was below one
when a connection was taken off it; and the readiness flag says whether the distinct connected
peers are enough. -/
theorem readiness_tracks_peers (minConnectedPeers : ℕ) (ready : Option Bool)
    (es : List (SwarmEvent PeerId Multiaddr)) (hmatched : Matched (changes es)) :
    (∀ peer, peer ∈ ((GossipNode.new minConnectedPeers ready).run es).peers ↔
      closes peer (changes es) < opens peer (changes es)) ∧
    (∀ before peer after, es = before ++ .connectionClosed peer :: after →
      ∃ entry, ((GossipNode.new minConnectedPeers ready).run before).peers.lookup peer =
        some entry ∧ 1 ≤ entry.connections) ∧
    (∀ peer entry, ((GossipNode.new minConnectedPeers ready).run es).peers.lookup peer =
      some entry → closes peer (changes es) + entry.connections = opens peer (changes es) ∧
        Since peer (changes es) entry.sinceMs) ∧
    ((GossipNode.new minConnectedPeers ready).run es).ready =
      ready.map fun _ => decide (minConnectedPeers ≤ (present (changes es)).card) := by
  have hf := follows_run minConnectedPeers ready es hmatched
  refine ⟨fun peer => hf.registers.mem_iff, ?_, ?_, hf.ready⟩
  · rintro before peer after rfl
    have hsplit : changes (before ++ .connectionClosed peer :: after) =
        changes before ++ [.closed peer] ++ changes after := by
      simp [changes, SwarmEvent.change]
    rw [hsplit] at hmatched
    have hclosed : Matched (changes before ++ [.closed peer]) := fun part hpart =>
      hmatched part (hpart.trans (List.prefix_append _ _))
    have hat := (follows_run minConnectedPeers ready before hclosed.of_snoc).registers
    obtain ⟨entry, hlookup⟩ := Option.isSome_iff_exists.mp
      (AList.lookup_isSome.mpr (hat.mem_iff.mpr hclosed.present))
    have hrec := hat peer
    rw [hlookup] at hrec
    exact ⟨entry, hlookup, hrec.2.1⟩
  · intro peer entry hlookup
    have hrec := hf.registers peer
    rw [hlookup] at hrec
    exact ⟨hrec.1, hrec.2.2⟩

/-- A peer comes twice and goes once, another comes and goes. -/
def twoPeers : List (SwarmEvent ℕ String) :=
  [.connectionEstablished 7 "/ip4/10.0.0.7/tcp/64442" 100, .connectionEstablished 7 "" 200,
    .connectionEstablished 8 "" 300, .connectionClosed 7, .other, .connectionClosed 8]

theorem readiness_tracks_peers_twoPeers :
    (∃ entry, ((GossipNode.new 2 (some true)).run twoPeers).peers.lookup 7 = some entry ∧
      entry.connections = 1 ∧ entry.sinceMs = 100) ∧
    ((GossipNode.new 2 (some true)).run twoPeers).ready =
      (some true).map fun _ => decide (2 ≤ (present (changes twoPeers)).card) := by
  have hopened : Matched [.opened 7 100, .opened 7 200, .opened 8 300] :=
    ((matched_nil.opened 7 100).opened 7 200).opened 8 300
  have hclosed : Matched [.opened 7 100, .opened 7 200, .opened 8 300, .closed 7] :=
    hopened.closed (by decide)
  have hmatched : Matched (changes twoPeers) := hclosed.closed (by decide)
  exact ⟨by decide +kernel, (readiness_tracks_peers 2 (some true) twoPeers hmatched).2.2.2⟩

end P2p
end Robins
