import Robins.Meshtastic.Accounting

/-!
# What a fragment can do

`accept` looks at the assembly under the key of a fragment, at the number of assemblies and at the
number of its sender's, and then changes at most that assembly and its sender's counter.  Here it
is cut in two along this line: `verdict` is what it decides, a function of those three things, and
`Change.apply` is what it does about it (`accept_eq_verdict`).

`Decides` lists once what can be decided and when.  What later modules say about isolation,
lifetimes and accounting is read off this list: an assembly begins, goes on, or ends; or nothing
happens, and there is a reason.  There is one detour.  A fragment that completes
an assembly is first stored, and then the whole assembly is taken out; the first leaves no trace
after the second (`discard_insert`), so the list has only what is there in the end.
-/

namespace Robins
namespace Meshtastic

/-- What is done about a fragment. -/
inductive Change where
  /-- Nothing. -/
  | kept
  /-- The assembly under the key is discarded. -/
  | removed
  /-- The assembly under the key is replaced. -/
  | advanced (assembly : Assembly)
  /-- A new assembly takes a place. -/
  | begun (assembly : Assembly)
  /-- A new assembly takes a place and gives it back at once. -/
  | passed (assembly : Assembly)

/-- How many assemblies the counter says a sender has. -/
def places (r : Reassembler) (sender : UInt32) : ℕ :=
  (r.pendingPerSender.lookup sender).getD 0

/-- Store an assembly in a new place. -/
def begin (r : Reassembler) (key : Key) (assembly : Assembly) : Reassembler :=
  { r with
    assemblies := r.assemblies.insert key assembly
    pendingPerSender := r.pendingPerSender.insert key.sender (places r key.sender + 1) }

/-- Do it. -/
def Change.apply (r : Reassembler) (key : Key) : Change → Reassembler
  | .kept => r
  | .removed => discard r key
  | .advanced assembly => { r with assemblies := r.assemblies.insert key assembly }
  | .begun assembly => begin r key assembly
  | .passed assembly => discard (begin r key assembly) key

/-- The assembly of one stored fragment. -/
def Assembly.ofFrame (now : Instant) (frame : FragmentFrame) : Assembly where
  count := frame.count
  fragments := (List.replicate frame.count.toNat none).set frame.index.toNat (some frame.body)
  received := 1
  totalBytes := frame.body.length
  createdAt := now
  lastProgress := now

/-- The assembly with one more fragment stored. -/
def Assembly.store (a : Assembly) (now : Instant) (frame : FragmentFrame) : Assembly :=
  { a with
    totalBytes := a.totalBytes + frame.body.length
    fragments := a.fragments.set frame.index.toNat (some frame.body)
    received := a.received + 1
    lastProgress := now }

@[simp] theorem Assembly.store_createdAt (a : Assembly) (now : Instant) (frame : FragmentFrame) :
    (a.store now frame).createdAt = a.createdAt := rfl

@[simp] theorem Assembly.store_lastProgress (a : Assembly) (now : Instant)
    (frame : FragmentFrame) : (a.store now frame).lastProgress = now := rfl

/-- What becomes of an assembly that counts as full. -/
def closing (sha256 : Sha256) (id : MessageId) (a : Assembly) : Outcome :=
  match joinFragments a.fragments with
  | none => .conflict
  | some buf =>
    if messageId sha256 buf ≠ id then .rejected .messageIdMismatch else .complete buf

/-- What is decided about a fragment, given the assembly under its key and the
places taken by all assemblies and by those of its sender. -/
def verdict (sha256 : Sha256) (config : ReassemblerConfig) (pending senderPending : ℕ)
    (slot : Option Assembly) (now : Instant) (frame : FragmentFrame) :
    Option (Outcome × Change) :=
  match slot with
  | some assembly =>
    if assembly.count ≠ frame.count then some (.conflict, .removed)
    else
      match assembly.fragments[frame.index.toNat]? with
      | none => none
      | some (some existing) =>
        if existing = frame.body then some (.duplicateIgnored, .kept)
        else some (.conflict, .removed)
      | some none =>
        if assembly.totalBytes + frame.body.length > config.maxReassembledBytes then
          some (.rejected .oversize, .removed)
        else if assembly.received + 1 = assembly.count.toNat then
          some (closing sha256 frame.messageId (assembly.store now frame), .removed)
        else some (.progress, .advanced (assembly.store now frame))
  | none =>
    if frame.count.toNat > config.maxFragments then some (.rejected .tooManyFragments, .kept)
    else if pending ≥ config.maxPending then some (.rejected .pendingLimitGlobal, .kept)
    else if senderPending ≥ config.maxPendingPerSender then
      some (.rejected .pendingLimitPerSender, .kept)
    else if frame.body.length > config.maxReassembledBytes then
      some (.rejected .oversize, .kept)
    else if frame.index.toNat < frame.count.toNat then
      if frame.count = 1 then
        some (closing sha256 frame.messageId (.ofFrame now frame), .passed (.ofFrame now frame))
      else some (.progress, .begun (.ofFrame now frame))
    else none

variable {sha256 : Sha256} {config : ReassemblerConfig} {r : Reassembler} {key : Key}

/-! ## `accept` is a verdict and a change -/

theorem complete_eq_closing {a : Assembly} (h : r.assemblies.lookup key = some a) :
    complete sha256 r key = (closing sha256 key.messageId a, discard r key) := by
  unfold complete closing
  rw [h]
  dsimp only
  cases joinFragments a.fragments with
  | none => rfl
  | some buf =>
    dsimp only
    split_ifs <;> rfl

/-- Discarding an assembly undoes an earlier store under its key. -/
theorem discard_insert {a : Assembly} (h : r.assemblies.lookup key = some a) (b : Assembly) :
    discard { r with assemblies := r.assemblies.insert key b } key = discard r key := by
  have hinsert : (r.assemblies.insert key b).lookup key = some b := AList.lookup_insert _
  unfold discard
  rw [h]
  dsimp only
  rw [hinsert]
  dsimp only
  congr 1
  apply AList.ext
  show List.kerase key (r.assemblies.insert key b).entries = List.kerase key r.assemblies.entries
  rw [AList.entries_insert]
  exact List.kerase_cons_eq rfl

/-- **`accept` does what the verdict calls for.**  The panic is the same on both sides: a verdict
that is none. -/
theorem accept_eq_verdict (sha256 : Sha256) (r : Reassembler) (now : Instant) (sender : UInt32)
    (f : FragmentFrame) :
    accept sha256 r now sender f =
      (verdict sha256 r.config r.pendingLen (places r sender)
        (r.assemblies.lookup ⟨sender, f.messageId⟩) now f).map
          fun p => (p.1, p.2.apply r ⟨sender, f.messageId⟩) := by
  unfold accept verdict
  dsimp only
  cases hlookup : r.assemblies.lookup ⟨sender, f.messageId⟩ with
  | some a =>
    dsimp only
    by_cases hcount : a.count ≠ f.count
    · rw [if_pos hcount, if_pos hcount]
      rfl
    rw [if_neg hcount, if_neg hcount]
    cases hslot : a.fragments[f.index.toNat]? with
    | none => rfl
    | some slot =>
      cases slot with
      | some existing =>
        dsimp only
        split_ifs <;> rfl
      | none =>
        dsimp only
        by_cases hover : a.totalBytes + f.body.length > r.config.maxReassembledBytes
        · rw [if_pos hover, if_pos hover]
          rfl
        rw [if_neg hover, if_neg hover]
        by_cases hfull : a.received + 1 = a.count.toNat
        · -- the last fragment: what was stored for a moment is discarded with the rest
          rw [if_pos hfull, if_pos hfull, complete_eq_closing (AList.lookup_insert _),
            discard_insert hlookup]
          rfl
        · rw [if_neg hfull, if_neg hfull]
          rfl
  | none =>
    dsimp only
    rw [List.length_replicate]
    by_cases hmany : f.count.toNat > r.config.maxFragments
    · rw [if_pos hmany, if_pos hmany]
      rfl
    rw [if_neg hmany, if_neg hmany]
    rw [Reassembler.pendingLen]
    by_cases hglobal : r.assemblies.keys.length ≥ r.config.maxPending
    · rw [if_pos hglobal, if_pos hglobal]
      rfl
    rw [if_neg hglobal, if_neg hglobal]
    rw [places]
    by_cases hper : (r.pendingPerSender.lookup sender).getD 0 ≥ r.config.maxPendingPerSender
    · rw [if_pos hper, if_pos hper]
      rfl
    rw [if_neg hper, if_neg hper]
    by_cases hover : f.body.length > r.config.maxReassembledBytes
    · rw [if_pos hover, if_pos hover]
      rfl
    rw [if_neg hover, if_neg hover]
    by_cases hindex : f.index.toNat < f.count.toNat
    · rw [if_pos hindex, if_pos hindex]
      by_cases hone : f.count = 1
      · rw [if_pos hone, if_pos hone, complete_eq_closing (AList.lookup_insert _)]
        rfl
      · rw [if_neg hone, if_neg hone]
        rfl
    · rw [if_neg hindex, if_neg hindex]
      rfl

/-! ## All that can be decided -/

/-- The verdicts, and when they fall. -/
inductive Decides (sha256 : Sha256) (config : ReassemblerConfig) (pending senderPending : ℕ)
    (slot : Option Assembly) (now : Instant) (f : FragmentFrame) : Outcome → Change → Prop where
  | tooMany (fresh : slot = none) :
      Decides _ _ _ _ _ _ _ (.rejected .tooManyFragments) .kept
  | fullGlobal (fresh : slot = none) (full : config.maxPending ≤ pending) :
      Decides _ _ _ _ _ _ _ (.rejected .pendingLimitGlobal) .kept
  | fullPerSender (fresh : slot = none) (full : config.maxPendingPerSender ≤ senderPending) :
      Decides _ _ _ _ _ _ _ (.rejected .pendingLimitPerSender) .kept
  | large (fresh : slot = none) :
      Decides _ _ _ _ _ _ _ (.rejected .oversize) .kept
  | begun (fresh : slot = none) (place : pending < config.maxPending)
      (senderPlace : senderPending < config.maxPendingPerSender) :
      Decides _ _ _ _ _ _ _ .progress (.begun (.ofFrame now f))
  | passed (fresh : slot = none) (place : pending < config.maxPending)
      (senderPlace : senderPending < config.maxPendingPerSender) (one : f.count = 1) :
      Decides _ _ _ _ _ _ _ (closing sha256 f.messageId (.ofFrame now f))
        (.passed (.ofFrame now f))
  | repeated (a : Assembly) (there : slot = some a) :
      Decides _ _ _ _ _ _ _ .duplicateIgnored .kept
  | advanced (a : Assembly) (there : slot = some a) :
      Decides _ _ _ _ _ _ _ .progress (.advanced (a.store now f))
  | conflict (a : Assembly) (there : slot = some a) :
      Decides _ _ _ _ _ _ _ .conflict .removed
  | oversize (a : Assembly) (there : slot = some a) :
      Decides _ _ _ _ _ _ _ (.rejected .oversize) .removed
  | closed (a : Assembly) (there : slot = some a) :
      Decides _ _ _ _ _ _ _ (closing sha256 f.messageId (a.store now f)) .removed

variable {pending senderPending : ℕ} {slot : Option Assembly} {now : Instant}
  {f : FragmentFrame} {outcome : Outcome} {change : Change}

theorem decides_of_verdict
    (h : verdict sha256 config pending senderPending slot now f = some (outcome, change)) :
    Decides sha256 config pending senderPending slot now f outcome change := by
  unfold verdict at h
  cases slot with
  | some a =>
    dsimp only at h
    by_cases hcount : a.count ≠ f.count
    · rw [if_pos hcount] at h
      obtain ⟨rfl, rfl⟩ := Prod.mk.inj (Option.some.inj h)
      exact .conflict a rfl
    rw [if_neg hcount] at h
    cases hslot : a.fragments[f.index.toNat]? with
    | none =>
      rw [hslot] at h
      exact absurd h (by simp)
    | some place =>
      rw [hslot] at h
      cases place with
      | some existing =>
        dsimp only at h
        split_ifs at h
        · obtain ⟨rfl, rfl⟩ := Prod.mk.inj (Option.some.inj h)
          exact .repeated a rfl
        · obtain ⟨rfl, rfl⟩ := Prod.mk.inj (Option.some.inj h)
          exact .conflict a rfl
      | none =>
        dsimp only at h
        split_ifs at h
        · obtain ⟨rfl, rfl⟩ := Prod.mk.inj (Option.some.inj h)
          exact .oversize a rfl
        · obtain ⟨rfl, rfl⟩ := Prod.mk.inj (Option.some.inj h)
          exact .closed a rfl
        · obtain ⟨rfl, rfl⟩ := Prod.mk.inj (Option.some.inj h)
          exact .advanced a rfl
  | none =>
    dsimp only at h
    split_ifs at h with hmany hglobal hper hover hindex hone
    · obtain ⟨rfl, rfl⟩ := Prod.mk.inj (Option.some.inj h)
      exact .tooMany rfl
    · obtain ⟨rfl, rfl⟩ := Prod.mk.inj (Option.some.inj h)
      exact .fullGlobal rfl hglobal
    · obtain ⟨rfl, rfl⟩ := Prod.mk.inj (Option.some.inj h)
      exact .fullPerSender rfl hper
    · obtain ⟨rfl, rfl⟩ := Prod.mk.inj (Option.some.inj h)
      exact .large rfl
    · obtain ⟨rfl, rfl⟩ := Prod.mk.inj (Option.some.inj h)
      exact .passed rfl (Nat.lt_of_not_le hglobal) (Nat.lt_of_not_le hper) hone
    · obtain ⟨rfl, rfl⟩ := Prod.mk.inj (Option.some.inj h)
      exact .begun rfl (Nat.lt_of_not_le hglobal) (Nat.lt_of_not_le hper)

/-- **What `accept` did**, when it did not panic. -/
theorem decides_of_accept {sender : UInt32} {r' : Reassembler}
    (h : accept sha256 r now sender f = some (outcome, r')) :
    ∃ change, r' = change.apply r ⟨sender, f.messageId⟩ ∧
      Decides sha256 r.config r.pendingLen (places r sender)
        (r.assemblies.lookup ⟨sender, f.messageId⟩) now f outcome change := by
  rw [accept_eq_verdict] at h
  obtain ⟨⟨o, change⟩, hverdict, heq⟩ := Option.map_eq_some_iff.mp h
  obtain ⟨rfl, rfl⟩ := Prod.mk.inj heq
  exact ⟨change, rfl, decides_of_verdict hverdict⟩

/-- A full assembly ends as a payload, as a mismatch or as a conflict. -/
theorem closing_cases (sha256 : Sha256) (id : MessageId) (a : Assembly) :
    closing sha256 id a = .conflict ∨ closing sha256 id a = .rejected .messageIdMismatch ∨
      ∃ payload, closing sha256 id a = .complete payload := by
  unfold closing
  split
  · exact .inl rfl
  · split_ifs
    · exact .inr (.inl rfl)
    · exact .inr (.inr ⟨_, rfl⟩)

theorem closing_ne_rejected (sha256 : Sha256) (id : MessageId) (a : Assembly)
    {reason : RejectReason} (h : reason ≠ .messageIdMismatch) :
    closing sha256 id a ≠ .rejected reason := by
  intro heq
  rcases closing_cases sha256 id a with hc | hc | ⟨payload, hc⟩
  · exact absurd (heq.symm.trans hc) (by simp)
  · exact h (Outcome.rejected.inj (heq.symm.trans hc))
  · exact absurd (heq.symm.trans hc) (by simp)

/-- The global limit is given as the reason only when it is reached. -/
theorem Decides.full_of_global
    (hd : Decides sha256 config pending senderPending slot now f outcome change)
    (h : outcome = .rejected .pendingLimitGlobal) : config.maxPending ≤ pending := by
  cases hd with
  | fullGlobal _ hfull => exact hfull
  | passed _ _ _ _ => exact absurd h (closing_ne_rejected _ _ _ (by simp))
  | closed _ _ => exact absurd h (closing_ne_rejected _ _ _ (by simp))
  | _ => exact absurd h (by simp)

theorem Decides.full_of_perSender
    (hd : Decides sha256 config pending senderPending slot now f outcome change)
    (h : outcome = .rejected .pendingLimitPerSender) :
    config.maxPendingPerSender ≤ senderPending := by
  cases hd with
  | fullPerSender _ hfull => exact hfull
  | passed _ _ _ _ => exact absurd h (closing_ne_rejected _ _ _ (by simp))
  | closed _ _ => exact absurd h (closing_ne_rejected _ _ _ (by simp))
  | _ => exact absurd h (by simp)

theorem Accounted.places_eq (h : Accounted config r) (sender : UInt32) :
    places r sender = senderCount r sender := by
  rw [places, h.counter, tally_getD]

/-- Whatever is decided, the places are counted right. -/
theorem Accounted.apply (h : Accounted config r)
    (hd : Decides sha256 r.config r.pendingLen (places r key.sender) (r.assemblies.lookup key)
      now f outcome change) : Accounted config (change.apply r key) := by
  have hbegin : ∀ a, r.assemblies.lookup key = none → r.pendingLen < r.config.maxPending →
      places r key.sender < r.config.maxPendingPerSender →
      Accounted config (Meshtastic.begin r key a) := by
    intro a hfresh hplace hsender
    rw [h.config_eq] at hplace hsender
    exact h.begin (AList.lookup_eq_none.mp hfresh) hplace hsender a
  cases hd with
  | tooMany _ => exact h
  | fullGlobal _ _ => exact h
  | fullPerSender _ _ => exact h
  | large _ => exact h
  | begun hfresh hplace hsender => exact hbegin _ hfresh hplace hsender
  | passed hfresh hplace hsender _ => exact (hbegin _ hfresh hplace hsender).discard key
  | repeated a _ => exact h
  | advanced a hthere => exact h.replace (mem_of_lookup hthere) _
  | conflict a _ => exact h.discard key
  | oversize a _ => exact h.discard key
  | closed a _ => exact h.discard key

/-! ## What a change leaves alone -/

/-- The assembly stored under the key after a change. -/
def Change.after (before : Option Assembly) : Change → Option Assembly
  | .kept => before
  | .removed => none
  | .advanced assembly => some assembly
  | .begun assembly => some assembly
  | .passed _ => none

@[simp] theorem config_discard (r : Reassembler) (key : Key) :
    (discard r key).config = r.config := by
  unfold discard
  split <;> rfl

theorem config_foldl_discard (keys : List Key) (r : Reassembler) :
    (keys.foldl discard r).config = r.config := by
  induction keys generalizing r with
  | nil => rfl
  | cons key keys ih => rw [List.foldl_cons, ih, config_discard]

@[simp] theorem config_apply (r : Reassembler) (key : Key) (change : Change) :
    (change.apply r key).config = r.config := by
  cases change with
  | kept => rfl
  | removed => exact config_discard r key
  | advanced a => rfl
  | begun a => rfl
  | passed a => exact config_discard _ key

/-- **A change is made to one assembly.** -/
theorem lookup_apply (r : Reassembler) (key : Key) (change : Change) (k : Key) :
    (change.apply r key).assemblies.lookup k =
      if k = key then change.after (r.assemblies.lookup key) else r.assemblies.lookup k := by
  have hinsert : ∀ a : Assembly, (r.assemblies.insert key a).lookup k =
      if k = key then some a else r.assemblies.lookup k := by
    intro a
    split
    · next hk => rw [hk, AList.lookup_insert]
    · next hk => rw [AList.lookup_insert_ne hk]
  cases change with
  | kept =>
    rw [Change.apply, Change.after]
    split
    · next hk => rw [hk]
    · rfl
  | removed => exact lookup_discard r key k
  | advanced a => exact hinsert a
  | begun a => exact hinsert a
  | passed a =>
    rw [Change.apply, lookup_discard, begin, hinsert, Change.after]
    split <;> rfl

/-- A discard keeps the counters of other senders. -/
theorem lookup_pending_discard (r : Reassembler) {key : Key} {sender : UInt32}
    (h : sender ≠ key.sender) :
    (discard r key).pendingPerSender.lookup sender = r.pendingPerSender.lookup sender := by
  unfold discard
  split
  · rfl
  · dsimp only
    unfold release
    split
    · rfl
    · split
      · exact AList.lookup_erase_ne h
      · exact AList.lookup_insert_ne h

theorem lookup_pending_apply (r : Reassembler) {key : Key} (change : Change) {sender : UInt32}
    (h : sender ≠ key.sender) :
    (change.apply r key).pendingPerSender.lookup sender = r.pendingPerSender.lookup sender := by
  cases change with
  | kept => rfl
  | removed => exact lookup_pending_discard r h
  | advanced a => rfl
  | begun a => exact AList.lookup_insert_ne h
  | passed a =>
    rw [Change.apply, lookup_pending_discard _ h]
    exact AList.lookup_insert_ne h

/-- A discard gives back the place of the assembly it removes. -/
theorem places_discard (r : Reassembler) (key : Key) :
    places (discard r key) key.sender =
      places r key.sender - if key ∈ r.assemblies then 1 else 0 := by
  unfold discard places
  cases hlookup : r.assemblies.lookup key with
  | none =>
    rw [if_neg (AList.lookup_eq_none.mp hlookup)]
    rfl
  | some a =>
    rw [if_pos (mem_of_lookup hlookup)]
    dsimp only
    unfold release
    cases hcount : r.pendingPerSender.lookup key.sender with
    | none =>
      dsimp only
      rw [hcount]
      rfl
    | some count =>
      dsimp only
      split
      · next hzero =>
        rw [AList.lookup_erase, Option.getD_some, hzero]
        rfl
      · rw [AList.lookup_insert]
        rfl

end Meshtastic
end Robins
