import Robins.Meshtastic.Verdict
import Robins.Lib.EventMachine

/-!
# What the assemblies hold

Without its counters and slots an assembly is the list of fragments it has stored, and what becomes
of the next fragment is a function of that list: `gather` is the reassembler in these terms.  The
list is also what a run shows.  `live key h` reads off a history the fragments stored under a key
since the last time that key had no assembly.

`Assembly.Holds` says that the fields of an assembly are those of a list of fragments, `Tracks`
that every assembly holds the list the history gives for its key.  `accept_eq` then says that
`accept` does what `gather` says, and keeps both.

## What the fields are good for

The code does not look at its slots to see whether an assembly is full: it compares a counter with
the number of fragments.  That the counter is right is a matter of the list, whose positions are
distinct and below the count, so as many of them as the count are all of them
(`Assembly.Holds.slotOf_eq_some`), and the payload has no gap.  The counter of bytes is the length
of that payload for the same reason (`Assembly.Holds.length_assembled`), so the limit on bytes that
is checked fragment by fragment is one on what will be handed on.

An assembly never has all of its fragments between two events, and never none: the last one ends it
at once, and the first one begins it (`Gathers`).
-/

namespace Robins
namespace Meshtastic

/-! ## Lists of fragments -/

/-- The body stored for a position. -/
def slotOf (frames : List FragmentFrame) (i : ℕ) : Option Bytes :=
  (frames.find? fun f => f.index.toNat = i).map FragmentFrame.body

/-- The bytes of a list of fragments. -/
def totalBytes (frames : List FragmentFrame) : ℕ := (frames.map fun f => f.body.length).sum

/-- The bodies of a list of fragments, in position order. -/
def assembled (frames : List FragmentFrame) (count : ℕ) : Bytes :=
  ((List.range count).map fun i => (slotOf frames i).getD []).flatten

/-- What becomes of a fragment, given the fragments stored under its key and the
places taken by all assemblies and by those of its sender. -/
def gather (sha256 : Sha256) (config : ReassemblerConfig) (pending senderPending : ℕ)
    (frames : List FragmentFrame) (f : FragmentFrame) : Outcome :=
  match frames with
  | [] =>
    if f.count.toNat > config.maxFragments then .rejected .tooManyFragments
    else if pending ≥ config.maxPending then .rejected .pendingLimitGlobal
    else if senderPending ≥ config.maxPendingPerSender then .rejected .pendingLimitPerSender
    else if f.body.length > config.maxReassembledBytes then .rejected .oversize
    else .progress
  | g :: _ =>
    if g.count ≠ f.count then .conflict
    else
      match slotOf frames f.index.toNat with
      | some body => if body = f.body then .duplicateIgnored else .conflict
      | none =>
        if totalBytes frames + f.body.length > config.maxReassembledBytes then
          .rejected .oversize
        else if frames.length + 1 = f.count.toNat then
          let payload := assembled (frames ++ [f]) f.count.toNat
          if messageId sha256 payload ≠ f.messageId then .rejected .messageIdMismatch
          else .complete payload
        else .progress

/-- The fragments stored under a key after one of its fragments was handled. -/
def afterOutcome (frames : List FragmentFrame) (f : FragmentFrame) : Outcome → List FragmentFrame
  | .progress => frames ++ [f]
  | .duplicateIgnored => frames
  | _ => []

theorem slotOf_append (frames : List FragmentFrame) {f : FragmentFrame}
    (h : slotOf frames f.index.toNat = none) (i : ℕ) :
    slotOf (frames ++ [f]) i = if i = f.index.toNat then some f.body else slotOf frames i := by
  unfold slotOf at h ⊢
  rw [List.find?_append]
  by_cases hi : i = f.index.toNat
  · subst hi
    rw [Option.map_eq_none_iff] at h
    rw [h, if_pos rfl]
    simp
  · rw [if_neg hi]
    simp [Ne.symm hi]

/-! ## Joining -/

theorem joinFragments_slots {count : ℕ} {frames : List FragmentFrame}
    (h : ∀ i < count, ∃ body, slotOf frames i = some body) :
    joinFragments (Chunks.slots count (slotOf frames)) = some (assembled frames count) := by
  have hjoin : ∀ l : List ℕ, (∀ i ∈ l, ∃ body, slotOf frames i = some body) →
      joinFragments (l.map (slotOf frames)) =
        some ((l.map fun i => (slotOf frames i).getD []).flatten) := by
    intro l hl
    induction l with
    | nil => rfl
    | cons i l ih =>
      obtain ⟨⟨body, hbody⟩, hrest⟩ := List.forall_mem_cons.mp hl
      rw [List.map_cons, List.map_cons, hbody, joinFragments, ih hrest]
      rfl
  exact hjoin _ fun i hi => h i (List.mem_range.mp hi)

theorem joinFragments_eq_reduceOption {l : List (Option Bytes)} {buf : Bytes}
    (h : joinFragments l = some buf) : buf = l.reduceOption.flatten := by
  induction l generalizing buf with
  | nil =>
    obtain rfl := Option.some.inj h
    rfl
  | cons a l ih =>
    cases a with
    | none => exact absurd h (by simp [joinFragments])
    | some body =>
      obtain ⟨rest, hrest, rfl⟩ := Option.map_eq_some_iff.mp h
      rw [List.reduceOption_cons_of_some, List.flatten_cons, ← ih hrest]

/-! ## Assemblies and lists -/

/-- The assembly stores exactly these fragments. -/
structure Assembly.Holds (config : ReassemblerConfig) (a : Assembly)
    (frames : List FragmentFrame) : Prop where
  frames_ne_nil : frames ≠ []
  count_eq : ∀ f ∈ frames, f.count = a.count
  fragments_eq : a.fragments = Chunks.slots a.count.toNat (slotOf frames)
  filled : a.fragments.reduceOption.Perm (frames.map FragmentFrame.body)
  received_eq : a.received = frames.length
  totalBytes_eq : a.totalBytes = Meshtastic.totalBytes frames
  totalBytes_le : a.totalBytes ≤ config.maxReassembledBytes

section

variable {config : ReassemblerConfig} {a : Assembly} {frames : List FragmentFrame}

theorem Assembly.holds_begin {f : FragmentFrame} (hv : f.Valid)
    (hle : f.body.length ≤ config.maxReassembledBytes) (now : Instant) :
    Assembly.Holds config ⟨f.count, (List.replicate f.count.toNat none).set f.index.toNat
      (some f.body), 1, f.body.length, now, now⟩ [f] := by
  have hempty : List.replicate f.count.toNat (none : Option Bytes) =
      Chunks.slots f.count.toNat fun _ => none := by
    rw [Chunks.slots, List.map_const', List.length_range]
  have hslot : ∀ i, slotOf [f] i = if i = f.index.toNat then some f.body else none := fun i =>
    slotOf_append [] rfl i
  refine ⟨by simp, by simp, ?_, ?_, rfl, by simp [Meshtastic.totalBytes], hle⟩
  · dsimp only
    rw [hempty, Chunks.set_slots]
    exact congrArg _ (funext fun i => (hslot i).symm)
  · have hset := Chunks.reduceOption_set_perm (l := List.replicate f.count.toNat none)
      (i := f.index.toNat) (by simp [hv.index_lt]) f.body
    dsimp only
    rw [hempty] at hset ⊢
    rw [Chunks.reduceOption_slots_none] at hset
    exact hset

theorem Assembly.Holds.advance (h : a.Holds config frames) {f : FragmentFrame} (hv : f.Valid)
    (hcount : a.count = f.count) (hslot : slotOf frames f.index.toNat = none)
    (hle : a.totalBytes + f.body.length ≤ config.maxReassembledBytes) (now : Instant) :
    Assembly.Holds config { a with
      totalBytes := a.totalBytes + f.body.length
      fragments := a.fragments.set f.index.toNat (some f.body)
      received := a.received + 1
      lastProgress := now } (frames ++ [f]) := by
  refine ⟨by simp, ?_, ?_, ?_, ?_, ?_, hle⟩
  · intro g hg
    rcases List.mem_append.mp hg with hg | hg
    · exact h.count_eq g hg
    · obtain rfl := List.mem_singleton.mp hg
      exact hcount.symm
  · dsimp only
    rw [h.fragments_eq, Chunks.set_slots]
    exact congrArg _ (funext fun i => (slotOf_append _ hslot i).symm)
  · have hindex : f.index.toNat < a.count.toNat := hcount ▸ hv.index_lt
    have hempty : a.fragments[f.index.toNat]? = some none := by
      rw [h.fragments_eq, Chunks.getElem?_slots hindex, hslot]
    have hset := Chunks.reduceOption_set_perm hempty f.body
    rw [List.map_append]
    exact (hset.trans (h.filled.cons _)).trans (List.perm_append_singleton _ _).symm
  · dsimp only
    rw [h.received_eq, List.length_append, List.length_singleton]
  · dsimp only
    rw [h.totalBytes_eq]
    simp [Meshtastic.totalBytes]

/-- An assembly that has received as many fragments as it counts has them all. -/
theorem Assembly.Holds.slotOf_eq_some (h : a.Holds config frames)
    (hfull : a.received = a.count.toNat) :
    ∀ i < a.count.toNat, ∃ body, slotOf frames i = some body := by
  have hlen : (Chunks.slots a.count.toNat (slotOf frames)).reduceOption.length =
      a.count.toNat := by
    rw [← h.fragments_eq, h.filled.length_eq, List.length_map, ← h.received_eq, hfull]
  exact Chunks.exists_eq_some_of_length_reduceOption hlen

theorem Assembly.Holds.joinFragments_eq (h : a.Holds config frames)
    (hfull : a.received = a.count.toNat) :
    joinFragments a.fragments = some (assembled frames a.count.toNat) := by
  rw [h.fragments_eq]
  exact joinFragments_slots (h.slotOf_eq_some hfull)

/-- The payload of a full assembly is as long as its fragments together. -/
theorem Assembly.Holds.length_assembled (h : a.Holds config frames)
    (hfull : a.received = a.count.toNat) :
    (assembled frames a.count.toNat).length = a.totalBytes := by
  have hjoin := joinFragments_eq_reduceOption (h.joinFragments_eq hfull)
  have hsum := (h.filled.map List.length).sum_nat
  rw [hjoin, List.length_flatten, hsum, h.totalBytes_eq, List.map_map]
  rfl

end

/-! ## Histories -/

/-- What is seen of an event. -/
inductive Observation where
  | accepted (sender : UInt32) (frame : FragmentFrame) (outcome : Outcome)
  | swept (keys : List Key)
  | cleared
  deriving DecidableEq

/-- What can happen: a frame arrives, the sweep runs, the session is lost. -/
inductive Event where
  | packet (now : Instant) (sender : UInt32) (payload : Bytes)
  | sweep (now : Instant)
  | clear

/-- One event.  A packet counts as one when it parses to a fragment. -/
def reassemblerStep (sha256 : Sha256) (r : Reassembler) :
    Event → Option (Reassembler × List Observation)
  | .packet now sender payload =>
    match parseFrame payload with
    | .ok (.fragment frame) =>
      (accept sha256 r now sender frame).map fun p => (p.2, [.accepted sender frame p.1])
    | _ => none
  | .sweep now => some ((sweepExpired r now).2, [.swept (expiredKeys r now)])
  | .clear => some (clear r, [.cleared])

def reassembler (sha256 : Sha256) : EventMachine Reassembler Event Observation :=
  ⟨reassemblerStep sha256⟩

/-- A packet that counts is a fragment that was accepted. -/
theorem exists_accept_of_step {sha256 : Sha256} {r r' : Reassembler} {now : Instant}
    {sender : UInt32} {payload : Bytes} {o : List Observation}
    (h : (reassembler sha256).step r (.packet now sender payload) = some (r', o)) :
    ∃ f outcome, parseFrame payload = .ok (.fragment f) ∧
      accept sha256 r now sender f = some (outcome, r') ∧ o = [.accepted sender f outcome] := by
  simp only [reassembler, reassemblerStep] at h
  split at h
  · next f hparse =>
    obtain ⟨⟨outcome, r₁⟩, haccept, heq⟩ := Option.map_eq_some_iff.mp h
    obtain ⟨rfl, rfl⟩ := Prod.mk.inj heq
    exact ⟨f, outcome, hparse, haccept, rfl⟩
  · exact absurd h (by simp)

/-- One observation, for one key. -/
def liveStep (key : Key) (frames : List FragmentFrame) : Observation → List FragmentFrame
  | .accepted sender frame outcome =>
    if key = ⟨sender, frame.messageId⟩ then afterOutcome frames frame outcome else frames
  | .swept keys => if key ∈ keys then [] else frames
  | .cleared => []

/-- The fragments stored under a key, by the history. -/
def live (key : Key) (h : List Observation) : List FragmentFrame :=
  h.foldl (liveStep key) []

@[simp] theorem live_append_singleton (key : Key) (h : List Observation) (o : Observation) :
    live key (h ++ [o]) = liveStep key (live key h) o := by
  rw [live, List.foldl_append]
  rfl

/-! ## The invariant -/

/-- What is stored under a key is a list of fragments: none without an assembly,
and not all of them with one. -/
def Gathers (config : ReassemblerConfig) : Option Assembly → List FragmentFrame → Prop
  | none, frames => frames = []
  | some a, frames => a.Holds config frames ∧ a.received < a.count.toNat

/-- Every assembly holds what the history says. -/
structure Tracks (config : ReassemblerConfig) (stored : Key → List FragmentFrame)
    (r : Reassembler) : Prop where
  accounted : Accounted config r
  gathers : ∀ key, Gathers config (r.assemblies.lookup key) (stored key)

/-- The fragments stored after one key has changed. -/
def updateKey (stored : Key → List FragmentFrame) (key : Key) (frames : List FragmentFrame) :
    Key → List FragmentFrame :=
  fun k => if k = key then frames else stored k

section

variable {sha256 : Sha256} {config : ReassemblerConfig} {stored : Key → List FragmentFrame}
  {r : Reassembler}

theorem tracks_new (config : ReassemblerConfig) : Tracks config (fun _ => []) (.new config) :=
  ⟨accounted_new config, fun _ => rfl⟩

/-- Discarding an assembly leaves nothing under its key.  The assembly itself need
not be in order. -/
theorem tracks_discard (hacc : Accounted config r) (key : Key)
    (hother : ∀ k, k ≠ key → Gathers config (r.assemblies.lookup k) (stored k)) :
    Tracks config (updateKey stored key []) (discard r key) := by
  refine ⟨hacc.discard key, fun k => ?_⟩
  rw [lookup_discard, updateKey]
  by_cases hk : k = key
  · rw [if_pos hk, if_pos hk]
    rfl
  · rw [if_neg hk, if_neg hk]
    exact hother k hk

theorem tracks_insert {r' : Reassembler} (hacc : Accounted config r') {key : Key} {a : Assembly}
    {frames : List FragmentFrame} (hinsert : r'.assemblies = r.assemblies.insert key a)
    (hother : ∀ k, k ≠ key → Gathers config (r.assemblies.lookup k) (stored k))
    (hholds : a.Holds config frames) (hlt : a.received < a.count.toNat) :
    Tracks config (updateKey stored key frames) r' := by
  refine ⟨hacc, fun k => ?_⟩
  rw [hinsert, updateKey]
  by_cases hk : k = key
  · subst hk
    rw [AList.lookup_insert, if_pos rfl]
    exact ⟨hholds, hlt⟩
  · rw [AList.lookup_insert_ne hk, if_neg hk]
    exact hother k hk

variable (sha256) in
/-- A full assembly ends as its payload, or as the mismatch. -/
theorem closing_eq {a : Assembly} {frames : List FragmentFrame} (hholds : a.Holds config frames)
    (hfull : a.received = a.count.toNat) (id : MessageId) :
    closing sha256 id a =
      if messageId sha256 (assembled frames a.count.toNat) ≠ id then .rejected .messageIdMismatch
      else .complete (assembled frames a.count.toNat) := by
  rw [closing, hholds.joinFragments_eq hfull]

theorem updateKey_self (stored : Key → List FragmentFrame) {key : Key}
    {frames : List FragmentFrame} (h : stored key = frames) :
    updateKey stored key frames = stored := by
  funext k
  unfold updateKey
  split
  · next hk => rw [hk, h]
  · rfl

variable (sha256) in
/-- A frame for an assembly that is there: its fields say what its list of fragments
says. -/
theorem accept_eq_of_some (h : Tracks config stored r) {f : FragmentFrame} (hv : f.Valid)
    (now : Instant) (sender : UInt32) {a : Assembly}
    (hlookup : r.assemblies.lookup ⟨sender, f.messageId⟩ = some a) :
    ∃ r', accept sha256 r now sender f = some (gather sha256 config r.assemblies.keys.length
        (senderCount r sender) (stored ⟨sender, f.messageId⟩) f, r') ∧
      Tracks config (updateKey stored ⟨sender, f.messageId⟩
        (afterOutcome (stored ⟨sender, f.messageId⟩) f (gather sha256 config
          r.assemblies.keys.length (senderCount r sender) (stored ⟨sender, f.messageId⟩)
          f))) r' := by
  obtain ⟨hacc, hgathers⟩ := h
  generalize hkeydef : (⟨sender, f.messageId⟩ : Key) = key at hlookup ⊢
  have hat := hgathers key
  have hdiscard := tracks_discard hacc key fun k _ => hgathers k
  rw [hlookup] at hat
  obtain ⟨hholds, hlt⟩ := hat
  generalize hframes : stored key = frames at hholds
  obtain ⟨g, rest, rfl⟩ := List.exists_cons_of_ne_nil hholds.frames_ne_nil
  have hg : g.count = a.count := hholds.count_eq g List.mem_cons_self
  rw [accept_eq_verdict, hkeydef, hlookup, hacc.config_eq]
  simp only [verdict, gather, hg]
  by_cases hcount : a.count = f.count
  · have hindex : f.index.toNat < a.count.toNat := hcount ▸ hv.index_lt
    have hslot : a.fragments[f.index.toNat]? = some (slotOf (g :: rest) f.index.toNat) := by
      rw [hholds.fragments_eq, Chunks.getElem?_slots hindex]
    rw [if_neg (not_not.mpr hcount), if_neg (not_not.mpr hcount), hslot]
    cases hs : slotOf (g :: rest) f.index.toNat with
    | some existing =>
      dsimp only
      by_cases hbody : existing = f.body
      · rw [if_pos hbody, if_pos hbody]
        refine ⟨r, rfl, ?_⟩
        rw [afterOutcome, updateKey_self stored hframes]
        exact ⟨hacc, hgathers⟩
      · rw [if_neg hbody, if_neg hbody]
        exact ⟨_, rfl, hdiscard⟩
    | none =>
      dsimp only
      rw [← hholds.totalBytes_eq]
      by_cases hover : a.totalBytes + f.body.length > config.maxReassembledBytes
      · rw [if_pos hover, if_pos hover]
        exact ⟨_, rfl, hdiscard⟩
      · rw [if_neg hover, if_neg hover]
        have hadv : (a.store now f).Holds config (g :: rest ++ [f]) :=
          hholds.advance hv hcount hs (Nat.le_of_not_lt hover) now
        have hlen : a.received + 1 = (g :: rest).length + 1 := by rw [hholds.received_eq]
        rw [← hcount, ← hlen]
        by_cases hlast : a.received + 1 = a.count.toNat
        · -- the last missing fragment
          rw [if_pos hlast, if_pos hlast, closing_eq sha256 hadv hlast]
          refine ⟨_, rfl, ?_⟩
          split
          · exact hdiscard
          · exact hdiscard
        · rw [if_neg hlast, if_neg hlast]
          have hacc' := hacc.replace (mem_of_lookup hlookup) (a.store now f)
          refine ⟨_, rfl, tracks_insert hacc' rfl (fun k _ => hgathers k) hadv ?_⟩
          have hstored : (a.store now f).received = a.received + 1 := rfl
          have hcounted : (a.store now f).count = a.count := rfl
          rw [hstored, hcounted]
          omega
  · rw [if_pos hcount, if_pos hcount]
    exact ⟨_, rfl, hdiscard⟩

variable (sha256) in
/-- A frame for no assembly begins one, if there is a place for it. -/
theorem accept_eq_of_none (h : Tracks config stored r) {f : FragmentFrame} (hv : f.Valid)
    (now : Instant) (sender : UInt32)
    (hlookup : r.assemblies.lookup ⟨sender, f.messageId⟩ = none) :
    ∃ r', accept sha256 r now sender f = some (gather sha256 config r.assemblies.keys.length
        (senderCount r sender) (stored ⟨sender, f.messageId⟩) f, r') ∧
      Tracks config (updateKey stored ⟨sender, f.messageId⟩
        (afterOutcome (stored ⟨sender, f.messageId⟩) f (gather sha256 config
          r.assemblies.keys.length (senderCount r sender) (stored ⟨sender, f.messageId⟩)
          f))) r' := by
  obtain ⟨hacc, hgathers⟩ := h
  generalize hkeydef : (⟨sender, f.messageId⟩ : Key) = key at hlookup ⊢
  have hsender : key.sender = sender := by rw [← hkeydef]
  have hat := hgathers key
  rw [hlookup] at hat
  have hnil : stored key = [] := hat
  have hmem : key ∉ r.assemblies := AList.lookup_eq_none.mp hlookup
  have hplace : places r sender = senderCount r sender := hacc.places_eq sender
  have hsame : Tracks config (updateKey stored key []) r := by
    rw [updateKey_self stored hnil]
    exact ⟨hacc, hgathers⟩
  have hpending : r.pendingLen = r.assemblies.keys.length := rfl
  rw [accept_eq_verdict, hkeydef, hlookup, hnil, hplace, hpending, hacc.config_eq]
  simp only [verdict, gather]
  by_cases hmany : f.count.toNat > config.maxFragments
  · rw [if_pos hmany, if_pos hmany]
    exact ⟨r, rfl, hsame⟩
  by_cases hglobal : r.assemblies.keys.length ≥ config.maxPending
  · rw [if_neg hmany, if_neg hmany, if_pos hglobal, if_pos hglobal]
    exact ⟨r, rfl, hsame⟩
  by_cases hper : senderCount r sender ≥ config.maxPendingPerSender
  · rw [if_neg hmany, if_neg hmany, if_neg hglobal, if_neg hglobal, if_pos hper, if_pos hper]
    exact ⟨r, rfl, hsame⟩
  by_cases hover : f.body.length > config.maxReassembledBytes
  · rw [if_neg hmany, if_neg hmany, if_neg hglobal, if_neg hglobal, if_neg hper, if_neg hper,
      if_pos hover, if_pos hover]
    exact ⟨r, rfl, hsame⟩
  have hcount : ¬ f.count = 1 := by
    intro hone
    have htwo := hv.two_le_count
    rw [hone] at htwo
    exact absurd htwo (by decide)
  have hbegin : (Assembly.ofFrame now f).Holds config [f] :=
    Assembly.holds_begin hv (Nat.le_of_not_lt hover) now
  have hacc' : Accounted config (begin r key (.ofFrame now f)) := by
    refine hacc.begin hmem (Nat.lt_of_not_le hglobal) ?_ _
    rw [hsender, ← places, hplace]
    exact Nat.lt_of_not_le hper
  rw [if_neg hmany, if_neg hmany, if_neg hglobal, if_neg hglobal, if_neg hper, if_neg hper,
    if_neg hover, if_neg hover, if_pos hv.index_lt, if_neg hcount]
  exact ⟨_, rfl, tracks_insert hacc' rfl (fun k _ => hgathers k) hbegin hv.two_le_count⟩

variable (sha256) in
/-- **`accept` does what `gather` says.**  It never indexes out of bounds, its
answer is a function of the fragments stored under the key and of the places
taken, and afterwards exactly the fragments that answer calls for are stored. -/
theorem accept_eq (h : Tracks config stored r) {f : FragmentFrame} (hv : f.Valid)
    (now : Instant) (sender : UInt32) :
    ∃ r', accept sha256 r now sender f = some (gather sha256 config r.assemblies.keys.length
        (senderCount r sender) (stored ⟨sender, f.messageId⟩) f, r') ∧
      Tracks config (updateKey stored ⟨sender, f.messageId⟩
        (afterOutcome (stored ⟨sender, f.messageId⟩) f (gather sha256 config
          r.assemblies.keys.length (senderCount r sender) (stored ⟨sender, f.messageId⟩)
          f))) r' := by
  cases hlookup : r.assemblies.lookup ⟨sender, f.messageId⟩ with
  | some a => exact accept_eq_of_some sha256 h hv now sender hlookup
  | none => exact accept_eq_of_none sha256 h hv now sender hlookup

end

end Meshtastic
end Robins
