import Robins.Meshtastic.Gathering

/-!
# The reassembler over whole runs

Every event keeps `Tracks`, so in every state of every run the assemblies hold the fragments the
history has stored under their keys and the places are counted right.  `Sound` spells out what
follows: the limits, the counters of every assembly, that `accept` never indexes out of bounds, that
it reports a conflict only for fragments that do contradict each other, and what a completed payload
is made of.

Nothing of this is proved of the code's own loops and counters again: `accept_eq` says that they do
what `gather` does with a list of fragments, and the answers of `gather` are right by what the list
is (`answer_gather`).  A payload is the bodies of one fragment for each position, all of which have
arrived under the key since it last had no assembly, and its digest begins with the message id.
-/

namespace Robins
namespace Meshtastic

variable {sha256 : Sha256} {config : ReassemblerConfig}

theorem tracks_sweep {stored : Key → List FragmentFrame} {r : Reassembler}
    (h : Tracks config stored r) (now : Instant) :
    Tracks config (fun k => if k ∈ expiredKeys r now then [] else stored k)
      (sweepExpired r now).2 := by
  refine ⟨h.accounted.foldl_discard _, fun k => ?_⟩
  rw [sweepExpired, lookup_foldl_discard]
  by_cases hk : k ∈ expiredKeys r now
  · rw [if_pos hk, if_pos hk]
    rfl
  · rw [if_neg hk, if_neg hk]
    exact h.gathers k

/-- **One event keeps track of every assembly.** -/
theorem tracks_of_step {h : List Observation} {r r' : Reassembler} {e : Event}
    {o : List Observation} (ht : Tracks config (fun k => live k h) r)
    (hstep : (reassembler sha256).step r e = some (r', o)) :
    Tracks config (fun k => live k (h ++ o)) r' := by
  cases e with
  | packet now sender payload =>
    obtain ⟨f, outcome, hparse, haccept, rfl⟩ := exists_accept_of_step hstep
    obtain ⟨r₂, haccept', ht'⟩ := accept_eq sha256 ht (valid_of_parseFrame hparse) now sender
    rw [haccept] at haccept'
    obtain ⟨rfl, rfl⟩ := Prod.mk.inj (Option.some.inj haccept')
    refine ⟨ht'.accounted, fun k => ?_⟩
    have hk := ht'.gathers k
    rw [live_append_singleton, liveStep]
    rw [updateKey] at hk
    by_cases hkey : k = ⟨sender, f.messageId⟩
    · subst hkey
      rw [if_pos rfl] at hk ⊢
      exact hk
    · rw [if_neg hkey] at hk ⊢
      exact hk
  | sweep now =>
    obtain ⟨rfl, rfl⟩ := Prod.mk.inj (Option.some.inj hstep)
    have hsweep := tracks_sweep ht now
    refine ⟨hsweep.accounted, fun k => ?_⟩
    rw [live_append_singleton]
    exact hsweep.gathers k
  | clear =>
    obtain ⟨rfl, rfl⟩ := Prod.mk.inj (Option.some.inj hstep)
    refine ⟨ht.accounted.clear, fun k => ?_⟩
    rw [live_append_singleton]
    rfl

/-- **Every run keeps track of every assembly.**  So a statement about the fields of an assembly
may be proved of a list of fragments that the run has shown. -/
theorem tracks_of_exec {es : List Event} {r : Reassembler} {h : List Observation}
    (hrun : (reassembler sha256).exec (.new config) es = some (r, h)) :
    Tracks config (fun k => live k h) r :=
  EventMachine.exec_induction (P := fun _ h r => Tracks config (fun k => live k h) r)
    (tracks_new config) (fun _ _ _ _ _ _ _ ht hstep => tracks_of_step ht hstep) hrun

/-! ## What follows -/

/-- The fields of an assembly are consistent. -/
structure Assembly.WellFormed (config : ReassemblerConfig) (a : Assembly) : Prop where
  one_le_received : 1 ≤ a.received
  received_lt : a.received < a.count.toNat
  length_fragments : a.fragments.length = a.count.toNat
  received_eq : a.received = a.fragments.reduceOption.length
  totalBytes_eq : a.totalBytes = (a.fragments.reduceOption.map List.length).sum
  totalBytes_le : a.totalBytes ≤ config.maxReassembledBytes

theorem Assembly.Holds.wellFormed {a : Assembly} {frames : List FragmentFrame}
    (h : a.Holds config frames) (hlt : a.received < a.count.toNat) : a.WellFormed config where
  one_le_received := by
    rw [h.received_eq]
    exact List.length_pos_of_ne_nil h.frames_ne_nil
  received_lt := hlt
  length_fragments := by rw [h.fragments_eq, Chunks.length_slots]
  received_eq := by rw [h.filled.length_eq, List.length_map, h.received_eq]
  totalBytes_eq := by
    rw [(h.filled.map List.length).sum_nat, List.map_map, h.totalBytes_eq]
    rfl
  totalBytes_le := h.totalBytes_le

/-- The payload is the concatenation, in position order, of the bodies of these
fragments, one for each position. -/
def InOrder (frames : List FragmentFrame) (count : ℕ) (payload : Bytes) : Prop :=
  ∃ bodies : List Bytes, bodies.length = count ∧ payload = bodies.flatten ∧
    ∀ i, ∀ hi : i < bodies.length, ∃ f ∈ frames, f.index.toNat = i ∧ f.body = bodies[i]

theorem inOrder_assembled {frames : List FragmentFrame} {count : ℕ}
    (h : ∀ i < count, ∃ body, slotOf frames i = some body) :
    InOrder frames count (assembled frames count) := by
  refine ⟨(List.range count).map fun i => (slotOf frames i).getD [], by simp, rfl, ?_⟩
  intro i hi
  rw [List.length_map, List.length_range] at hi
  obtain ⟨body, hbody⟩ := h i hi
  obtain ⟨f, hf, hfb⟩ := Option.map_eq_some_iff.mp hbody
  have hindex : f.index.toNat = i := by simpa using List.find?_some hf
  refine ⟨f, List.mem_of_find?_eq_some hf, hindex, ?_⟩
  rw [List.getElem_map, List.getElem_range, hbody]
  exact hfb

/-- Two fragments of one key that cannot belong to the same payload. -/
def Contradicts (a : Assembly) (f : FragmentFrame) : Prop :=
  a.count ≠ f.count ∨
    ∃ existing, a.fragments[f.index.toNat]? = some (some existing) ∧ existing ≠ f.body

/-- What `accept` may answer to a fragment in a state with a history. -/
structure Answer (sha256 : Sha256) (config : ReassemblerConfig) (r : Reassembler)
    (h : List Observation) (sender : UInt32) (f : FragmentFrame) (outcome : Outcome) : Prop where
  /-- A conflict is one between the fragment and the assembly under its key. -/
  conflict : outcome = .conflict →
    ∃ a, r.assemblies.lookup ⟨sender, f.messageId⟩ = some a ∧ Contradicts a f
  /-- A completed payload fits and has the message id of its key. -/
  complete : ∀ payload, outcome = .complete payload →
    payload.length ≤ config.maxReassembledBytes ∧ messageId sha256 payload = f.messageId ∧
      InOrder (live ⟨sender, f.messageId⟩ h ++ [f]) f.count.toNat payload

/-- The resource and consistency invariant, in a state reached with a history. -/
structure Sound (sha256 : Sha256) (config : ReassemblerConfig) (r : Reassembler)
    (h : List Observation) : Prop where
  pendingLen_le : r.pendingLen ≤ config.maxPending
  counter : ∀ sender, r.pendingPerSender.lookup sender =
    if senderCount r sender = 0 then none else some (senderCount r sender)
  senderCount_le : ∀ sender, senderCount r sender ≤ config.maxPendingPerSender
  wellFormed : ∀ key a, r.assemblies.lookup key = some a → a.WellFormed config
  /-- No parsed fragment makes `accept` index out of bounds. -/
  accept : ∀ now sender payload f, parseFrame payload = .ok (.fragment f) →
    ∃ outcome r', accept sha256 r now sender f = some (outcome, r') ∧
      Answer sha256 config r h sender f outcome

/-- Answers that are neither a conflict nor a payload. -/
theorem answer_of_ne {r : Reassembler} {h : List Observation} {sender : UInt32}
    {f : FragmentFrame} {outcome : Outcome} (hconflict : outcome ≠ .conflict)
    (hcomplete : ∀ payload, outcome ≠ .complete payload) :
    Answer sha256 config r h sender f outcome :=
  ⟨fun heq => absurd heq hconflict, fun payload heq => absurd heq (hcomplete payload)⟩

/-- The answers of `gather` are as they should be. -/
theorem answer_gather {h : List Observation} {r : Reassembler}
    (ht : Tracks config (fun k => live k h) r) {f : FragmentFrame} (hv : f.Valid)
    (sender : UInt32) (pending senderPending : ℕ) :
    Answer sha256 config r h sender f (gather sha256 config pending senderPending
      (live ⟨sender, f.messageId⟩ h) f) := by
  have hat : Gathers config (r.assemblies.lookup ⟨sender, f.messageId⟩)
      (live ⟨sender, f.messageId⟩ h) := ht.gathers _
  generalize hframes : live ⟨sender, f.messageId⟩ h = frames at hat ⊢
  cases hlookup : r.assemblies.lookup ⟨sender, f.messageId⟩ with
  | none =>
    rw [hlookup] at hat
    obtain rfl : frames = [] := hat
    refine answer_of_ne ?_ fun payload => ?_
    · simp only [gather]
      split_ifs <;> simp
    · simp only [gather]
      split_ifs <;> simp
  | some a =>
    rw [hlookup] at hat
    obtain ⟨hholds, -⟩ := hat
    obtain ⟨g, rest, rfl⟩ := List.exists_cons_of_ne_nil hholds.frames_ne_nil
    have hg : g.count = a.count := hholds.count_eq g List.mem_cons_self
    simp only [gather, hg]
    by_cases hcount : a.count = f.count
    · have hindex : f.index.toNat < a.count.toNat := hcount ▸ hv.index_lt
      have hslot : a.fragments[f.index.toNat]? = some (slotOf (g :: rest) f.index.toNat) := by
        rw [hholds.fragments_eq, Chunks.getElem?_slots hindex]
      rw [if_neg (not_not.mpr hcount)]
      cases hs : slotOf (g :: rest) f.index.toNat with
      | some existing =>
        dsimp only
        by_cases hbody : existing = f.body
        · rw [if_pos hbody]
          exact answer_of_ne (by simp) (by simp)
        · rw [if_neg hbody]
          exact ⟨fun _ => ⟨a, hlookup, .inr ⟨existing, by rw [hslot, hs], hbody⟩⟩, by simp⟩
      | none =>
        dsimp only
        by_cases hover : totalBytes (g :: rest) + f.body.length > config.maxReassembledBytes
        · rw [if_pos hover]
          exact answer_of_ne (by simp) (by simp)
        by_cases hlast : (g :: rest).length + 1 = f.count.toNat
        · rw [if_neg hover, if_pos hlast]
          split_ifs with hid
          · exact answer_of_ne (by simp) (by simp)
          -- the payload: all positions are filled, and its bytes are those counted
          have hadv := hholds.advance hv hcount hs (by rw [hholds.totalBytes_eq]; omega) 0
          have hfull : a.received + 1 = a.count.toNat := by
            rw [hholds.received_eq, hcount]
            exact hlast
          have hlen := hadv.length_assembled hfull
          have hle := hadv.totalBytes_le
          dsimp only at hlen hle
          refine ⟨by simp, fun payload heq => ?_⟩
          obtain rfl := Outcome.complete.inj heq
          rw [← hcount, hlen, hframes]
          refine ⟨hle, ?_, inOrder_assembled (hadv.slotOf_eq_some hfull)⟩
          rw [hcount]
          exact not_not.mp hid
        · rw [if_neg hover, if_neg hlast]
          exact answer_of_ne (by simp) (by simp)
    · rw [if_pos hcount]
      exact ⟨fun _ => ⟨a, hlookup, .inl hcount⟩, by simp⟩

/-- **The reassembler is sound.**  In every state reached from the empty reassembler by parsed
fragments, sweeps and session losses: no limit is exceeded and the counters count; a fragment never
indexes an assembly out of bounds; a conflict is reported only of fragments that do contradict the
assembly; and a completed payload is made of one fragment for each position and has the message id
it was sent under. -/
theorem reassembler_sound (sha256 : Sha256) (config : ReassemblerConfig) (es : List Event)
    (r : Reassembler) (h : List Observation)
    (hrun : (reassembler sha256).exec (.new config) es = some (r, h)) :
    Sound sha256 config r h := by
  have ht := tracks_of_exec hrun
  refine ⟨ht.accounted.length_le, ht.accounted.counter, ht.accounted.senderCount_le, ?_, ?_⟩
  · intro key a hlookup
    have hat := ht.gathers key
    rw [hlookup] at hat
    exact hat.1.wellFormed hat.2
  · intro now sender payload f hparse
    have hv := valid_of_parseFrame hparse
    obtain ⟨r', haccept, -⟩ := accept_eq sha256 ht hv now sender
    exact ⟨_, r', haccept, answer_gather ht hv sender _ _⟩

/-- A sender's two fragments, one delivered twice, and their payload. -/
def twoFragments : List Event :=
  [.packet 0 7 (0x41 :: [141, 95, 203, 202, 53, 86] ++ 0x11 :: [7]),
    .packet 1 7 (0x41 :: [141, 95, 203, 202, 53, 86] ++ 0x11 :: [7]), .sweep 2,
    .packet 3 7 (0x41 :: [141, 95, 203, 202, 53, 86] ++ 0x10 :: List.replicate 211 0)]

/-- The digest of 211 zero bytes and a 7. -/
def zerosDigest : FixedBytes 32 :=
  ⟨[141, 95, 203, 202, 53, 86, 16, 163, 8, 192, 83, 76, 238, 36, 114, 174, 197, 29, 220, 211, 24,
    16, 46, 49, 130, 113, 65, 148, 132, 62, 9, 42], rfl⟩

theorem reassembler_sound_twoFragments :
    ∃ r h, (reassembler fun _ => zerosDigest).exec (.new ⟨4096, 16, 2, 1, 30, 60⟩)
        twoFragments = some (r, h) ∧
      (h.getLast? = some (.accepted 7
        ⟨⟨[141, 95, 203, 202, 53, 86], rfl⟩, 0, 2, List.replicate 211 0⟩
        (.complete (List.replicate 211 0 ++ [7])))) ∧
      Sound (fun _ => zerosDigest) ⟨4096, 16, 2, 1, 30, 60⟩ r h := by
  have hlast : (((reassembler fun _ => zerosDigest).exec (.new ⟨4096, 16, 2, 1, 30, 60⟩)
      twoFragments).map fun p => p.2.getLast?) = some (some (.accepted 7
        ⟨⟨[141, 95, 203, 202, 53, 86], rfl⟩, 0, 2, List.replicate 211 0⟩
        (.complete (List.replicate 211 0 ++ [7])))) := by
    decide +kernel
  obtain ⟨⟨r, h⟩, hrun, hh⟩ := Option.map_eq_some_iff.mp hlast
  exact ⟨r, h, hrun, hh, reassembler_sound _ _ twoFragments r h hrun⟩

end Meshtastic
end Robins
