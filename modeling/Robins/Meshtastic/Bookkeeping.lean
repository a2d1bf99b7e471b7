import Robins.Meshtastic.Session
import Robins.Meshtastic.Lifetimes
import Robins.Protocol.WireCodec

/-!
# The books of a session

The lives of the assemblies of a session are an account: each one that was created has been
completed, has ended in a conflict, a rejection or by expiry, or is still pending.  The metrics
keep books about this account from the answers of the reassembler, and `Ledger` says what each
book entry stands for.

The entry for assemblies started is made for every fragment after which an assembly is incomplete,
not only for the first one.  `Ledger` therefore has a number of `extra` entries, and one is added
exactly when a fragment finds its assembly there and leaves it incomplete.

## What one event does

For a session without reassembler nothing happens to the books (`Ledger.phase`), and a packet is
its fragment, if it has one (`handlePacket_reassembly`).  What a fragment can do to the assembly
under its key is one of five things, listed once in `FragmentEffect`; each changes the lives and the
books together, and only one of them makes an extra entry (`Ledger.fragment`).  The sweep ends as
many lives as it takes assemblies away (`Ledger.sweep`).

So the books are balanced as long as no assembly has been advanced, and not afterwards, since extra
entries are never taken back: this is `balanced_iff`, at every moment of every session.
-/

namespace Robins
namespace Meshtastic

open Protocol Pipeline

/-! ## Counting lives -/

def Lifecycle.isCreated : Lifecycle → Bool
  | .created _ => true
  | .ended _ _ => false

def Lifecycle.hasFate (fate : Fate) : Lifecycle → Bool
  | .created _ => false
  | .ended _ end' => end' = fate

def createdCount (h : List Lifecycle) : ℕ := h.countP Lifecycle.isCreated

/-- Number of assemblies that ended in one way. -/
def endedCount (fate : Fate) (h : List Lifecycle) : ℕ := h.countP (Lifecycle.hasFate fate)

@[simp] theorem createdCount_append (h h' : List Lifecycle) :
    createdCount (h ++ h') = createdCount h + createdCount h' := List.countP_append

@[simp] theorem endedCount_append (fate : Fate) (h h' : List Lifecycle) :
    endedCount fate (h ++ h') = endedCount fate h + endedCount fate h' := List.countP_append

@[simp] theorem createdCount_created (key : Key) : createdCount [.created key] = 1 := rfl

@[simp] theorem createdCount_ended (key : Key) (fate : Fate) :
    createdCount [.ended key fate] = 0 := rfl

@[simp] theorem endedCount_created (fate : Fate) (key : Key) :
    endedCount fate [.created key] = 0 := rfl

@[simp] theorem endedCount_ended (fate fate' : Fate) (key : Key) :
    endedCount fate [.ended key fate'] = if fate' = fate then 1 else 0 := by
  rw [endedCount, List.countP_singleton, Lifecycle.hasFate]
  simp

/-! ## What handling a packet does to assemblies and metrics

The way of a packet has many exits, and at most one of them passes the reassembler.  So as far as
assemblies are concerned a packet is a fragment that is accepted and an answer that is counted, or
nothing. -/

/-- The metric that stands for an answer. -/
def ReassemblyMetrics.count (m : ReassemblyMetrics) : Outcome → ReassemblyMetrics
  | .progress => { m with started := m.started + 1 }
  | .complete _ => { m with completed := m.completed + 1 }
  | .duplicateIgnored => m
  | .conflict => { m with conflict := m.conflict + 1 }
  | .rejected _ => { m with oversize := m.oversize + 1 }

section

variable {prost : Prost} {sha256 : Sha256} {config : MeshtasticConfig} {r r' : Reassembler}
  {m m' : Metrics} {now : Instant} {receivedAt : BatchStore.Timestamp} {packet : FromRadio}
  {message : Option IngressMessage}

theorem submitEnvelope_reassembly (prost : Prost) (meshSender : UInt32)
    (receivedAt : BatchStore.Timestamp) (raw : Bytes) (m : Metrics) :
    (submitEnvelope prost meshSender receivedAt raw m).2.reassembly = m.reassembly := by
  unfold submitEnvelope
  split <;> rfl

/-- **Handling a packet, as far as assemblies are concerned**: its fragment, if it has
one, is accepted, and the answer is counted. -/
theorem handlePacket_reassembly (prost : Prost) (sha256 : Sha256) (config : MeshtasticConfig)
    (r : Reassembler) (m : Metrics) (now : Instant) (receivedAt : BatchStore.Timestamp)
    (packet : FromRadio) :
    (handlePacket prost sha256 config r m now receivedAt packet).map
        (fun p => (p.2.1, p.2.2.reassembly)) =
      match packetFragment config packet with
      | none => some (r, m.reassembly)
      | some (meshSender, f) =>
        (accept sha256 r now meshSender f).map fun p => (p.2, m.reassembly.count p.1) := by
  unfold handlePacket packetFragment
  rcases packet with ⟨_ | ⟨⟨meshSender, pkiEncrypted, _ | ⟨data⟩ | bytes⟩⟩ | _⟩
  · rfl
  · rfl
  · dsimp only
    by_cases hport : data.portnum ≠ config.portNum.toInt32
    · rw [if_pos hport, if_pos (.inl hport)]
      rfl
    by_cases hpki : ¬ pkiEncrypted = true
    · rw [if_neg hport, if_pos hpki, if_pos (.inr hpki)]
      rfl
    rw [if_neg hport, if_neg hpki, if_neg (not_or.mpr ⟨hport, hpki⟩)]
    cases parseFrame data.payload with
    | error err => rfl
    | ok frame =>
      cases frame with
      | single bytes =>
        dsimp only [Option.map_some]
        rw [submitEnvelope_reassembly]
      | fragment f =>
        dsimp only
        cases accept sha256 r now meshSender f with
        | none => rfl
        | some answer =>
          rcases answer with ⟨_ | payload | _ | _ | reason, r'⟩
          · rfl
          · dsimp only [Option.map_some]
            rw [submitEnvelope_reassembly]
            rfl
          · rfl
          · rfl
          · rfl
  · rfl
  · rfl

theorem valid_of_packetFragment {meshSender : UInt32} {f : FragmentFrame}
    (h : packetFragment config packet = some (meshSender, f)) : f.Valid := by
  unfold packetFragment at h
  split at h
  · split at h
    · split at h
      · exact absurd h (by simp)
      · split at h
        · next hparse =>
          obtain ⟨-, rfl⟩ := Prod.mk.inj (Option.some.inj h)
          exact valid_of_parseFrame hparse
        · exact absurd h (by simp)
    · exact absurd h (by simp)
  · exact absurd h (by simp)

end

/-! ## What a fragment does to the number of assemblies -/

/-- A fragment that fits into an assembly and does not fill it. -/
def Assembly.stays (config : ReassemblerConfig) (a : Assembly) (f : FragmentFrame) : Bool :=
  a.count = f.count ∧ a.fragments[f.index.toNat]? = some none ∧
    a.totalBytes + f.body.length ≤ config.maxReassembledBytes ∧ a.received + 1 ≠ a.count.toNat

section

variable {sha256 : Sha256} {config : ReassemblerConfig} {r r' : Reassembler} {now : Instant}
  {sender : UInt32} {f : FragmentFrame} {outcome : Outcome} {key : Key}

/-- An assembly that is there goes on after exactly these fragments. -/
theorem progress_iff_stays {pending senderPending : ℕ} {a : Assembly} {change : Change}
    (h : verdict sha256 config pending senderPending (some a) now f = some (outcome, change)) :
    outcome = .progress ↔ a.stays config f = true := by
  unfold verdict at h
  unfold Assembly.stays
  rw [decide_eq_true_iff]
  dsimp only at h
  by_cases hcount : a.count ≠ f.count
  · rw [if_pos hcount] at h
    obtain ⟨rfl, -⟩ := Prod.mk.inj (Option.some.inj h)
    exact iff_of_false (by simp) fun hstays => hcount hstays.1
  rw [if_neg hcount] at h
  cases hslot : a.fragments[f.index.toNat]? with
  | none =>
    rw [hslot] at h
    exact absurd h (by simp)
  | some slot =>
    rw [hslot] at h
    cases slot with
    | some existing =>
      have hout : outcome ≠ .progress := by
        rintro rfl
        dsimp only at h
        split_ifs at h
        all_goals simp at h
      exact iff_of_false hout fun hstays => absurd hstays.2.1 (by simp)
    | none =>
      dsimp only at h
      by_cases hover : a.totalBytes + f.body.length > config.maxReassembledBytes
      · rw [if_pos hover] at h
        obtain ⟨rfl, -⟩ := Prod.mk.inj (Option.some.inj h)
        exact iff_of_false (by simp) fun hstays => Nat.not_le.mpr hover hstays.2.2.1
      rw [if_neg hover] at h
      by_cases hfull : a.received + 1 = a.count.toNat
      · rw [if_pos hfull] at h
        obtain ⟨rfl, -⟩ := Prod.mk.inj (Option.some.inj h)
        refine iff_of_false ?_ fun hstays => hstays.2.2.2 hfull
        rcases closing_cases sha256 f.messageId (a.store now f) with hc | hc | ⟨payload, hc⟩
        all_goals
          rw [hc]
          simp
      · rw [if_neg hfull] at h
        obtain ⟨rfl, -⟩ := Prod.mk.inj (Option.some.inj h)
        exact iff_of_true rfl ⟨not_not.mp hcount, rfl, Nat.not_lt.mp hover, hfull⟩

theorem pendingLen_discard (h : key ∈ r.assemblies) :
    (discard r key).pendingLen + 1 = r.pendingLen := by
  obtain ⟨a, ha⟩ := Option.isSome_iff_exists.mp (AList.lookup_isSome.mpr h)
  have hkeys : (discard r key).assemblies.keys = r.assemblies.keys.erase key := by
    unfold discard
    rw [ha]
    exact AList.keys_erase _ _
  have hpos := List.length_pos_of_mem (AList.mem_keys.mp h)
  rw [Reassembler.pendingLen, Reassembler.pendingLen, hkeys,
    List.length_erase_of_mem (AList.mem_keys.mp h)]
  omega

/-- What a fragment that was accepted did to the assembly under its key. -/
inductive FragmentEffect (r r' : Reassembler) (key : Key) (f : FragmentFrame) :
    Outcome → Prop where
  /-- There was none, and there is one. -/
  | created (fresh : key ∉ r.assemblies) (there : key ∈ r'.assemblies)
      (more : r'.pendingLen = r.pendingLen + 1) : FragmentEffect r r' key f .progress
  /-- There was none, and there is none. -/
  | refused (reason : RejectReason) (fresh : key ∉ r.assemblies) (same : r' = r) :
      FragmentEffect r r' key f (.rejected reason)
  /-- Nothing. -/
  | repeated (there : key ∈ r.assemblies) (same : r' = r) :
      FragmentEffect r r' key f .duplicateIgnored
  /-- There was one, and there is one. -/
  | advanced (before : key ∈ r.assemblies) (after : key ∈ r'.assemblies)
      (same : r'.pendingLen = r.pendingLen) : FragmentEffect r r' key f .progress
  /-- There was one, and there is none. -/
  | ended (outcome : Outcome) (fate : Fate) (hfate : outcome.fate = some fate)
      (before : key ∈ r.assemblies) (after : key ∉ r'.assemblies)
      (less : r'.pendingLen + 1 = r.pendingLen) : FragmentEffect r r' key f outcome

/-- **Every accepted fragment has one of these effects.**  It is the list of verdicts, read for
whether there is an assembly before and after. -/
theorem fragmentEffect_of_accept (hv : f.Valid)
    (h : accept sha256 r now sender f = some (outcome, r')) :
    FragmentEffect r r' ⟨sender, f.messageId⟩ f outcome := by
  obtain ⟨change, rfl, hd⟩ := decides_of_accept h
  have hafter : ∀ change : Change, (⟨sender, f.messageId⟩ : Key) ∈
      (change.apply r ⟨sender, f.messageId⟩).assemblies ↔
        (change.after (r.assemblies.lookup ⟨sender, f.messageId⟩)).isSome = true := by
    intro change
    rw [← AList.lookup_isSome, lookup_apply, if_pos rfl]
  have hended : ∀ o : Outcome, (∃ fate, o.fate = some fate) →
      (⟨sender, f.messageId⟩ : Key) ∈ r.assemblies →
      FragmentEffect r (Change.removed.apply r ⟨sender, f.messageId⟩) ⟨sender, f.messageId⟩ f
        o := by
    rintro o ⟨fate, hfate⟩ hthere
    exact .ended o fate hfate hthere (by rw [hafter]; simp [Change.after])
      (pendingLen_discard hthere)
  cases hd with
  | tooMany hfresh => exact .refused _ (AList.lookup_eq_none.mp hfresh) rfl
  | fullGlobal hfresh _ => exact .refused _ (AList.lookup_eq_none.mp hfresh) rfl
  | fullPerSender hfresh _ => exact .refused _ (AList.lookup_eq_none.mp hfresh) rfl
  | large hfresh => exact .refused _ (AList.lookup_eq_none.mp hfresh) rfl
  | begun hfresh _ _ =>
    have hnot := AList.lookup_eq_none.mp hfresh
    refine .created hnot (by rw [hafter]; simp [Change.after]) ?_
    rw [Reassembler.pendingLen, Change.apply, begin, AList.keys_insert,
      List.erase_of_not_mem fun hk => hnot (AList.mem_keys.mpr hk)]
    rfl
  | passed _ _ _ hone =>
    -- a parsed fragment is one of at least two
    have htwo := hv.two_le_count
    rw [hone] at htwo
    exact absurd htwo (by decide)
  | repeated a hthere => exact .repeated (mem_of_lookup hthere) rfl
  | advanced a hthere =>
    have hin := mem_of_lookup hthere
    refine .advanced hin (by rw [hafter]; simp [Change.after]) ?_
    rw [Reassembler.pendingLen, Change.apply, AList.keys_insert]
    exact (List.perm_cons_erase (AList.mem_keys.mp hin)).symm.length_eq
  | conflict a hthere => exact hended _ ⟨_, rfl⟩ (mem_of_lookup hthere)
  | oversize a hthere => exact hended _ ⟨_, rfl⟩ (mem_of_lookup hthere)
  | closed a hthere =>
    refine hended _ ?_ (mem_of_lookup hthere)
    rcases closing_cases sha256 f.messageId (a.store now f) with hc | hc | ⟨payload, hc⟩
    all_goals
      rw [hc]
      exact ⟨_, rfl⟩

/-- What a sweep takes away are the assemblies it counts. -/
theorem length_swept (r : Reassembler) (now : Instant) :
    (r.assemblies.keys.filter fun key => key ∉ (sweepExpired r now).2.assemblies).length =
        (sweepExpired r now).1 ∧
      r.pendingLen = (sweepExpired r now).2.pendingLen + (sweepExpired r now).1 := by
  have hin : ∀ key, key ∈ (sweepExpired r now).2.assemblies ↔
      key ∈ r.assemblies ∧ key ∉ expiredKeys r now := by
    intro key
    rw [← AList.lookup_isSome, ← AList.lookup_isSome, sweepExpired, lookup_foldl_discard]
    by_cases hexp : key ∈ expiredKeys r now
    · simp [hexp]
    · simp [hexp]
  have hnodup : (expiredKeys r now).Nodup :=
    r.assemblies.keys_nodup.sublist (List.filter_sublist.map _)
  have hswept : (r.assemblies.keys.filter fun key =>
      key ∉ (sweepExpired r now).2.assemblies).Perm (expiredKeys r now) := by
    refine (List.perm_ext_iff_of_nodup (r.assemblies.keys_nodup.filter _) hnodup).mpr fun key => ?_
    rw [List.mem_filter, decide_eq_true_iff, hin, ← AList.mem_keys]
    constructor
    · rintro ⟨hkey, hnot⟩
      by_contra hexp
      exact hnot ⟨hkey, hexp⟩
    · intro hexp
      obtain ⟨a, ha, -⟩ := mem_expiredKeys.mp hexp
      exact ⟨mem_of_lookup ha, fun hboth => hboth.2 hexp⟩
  have hkept : (r.assemblies.keys.filter fun key =>
      key ∈ (sweepExpired r now).2.assemblies).Perm (sweepExpired r now).2.assemblies.keys := by
    refine (List.perm_ext_iff_of_nodup (r.assemblies.keys_nodup.filter _)
      (AList.keys_nodup _)).mpr fun key => ?_
    rw [List.mem_filter, decide_eq_true_iff, ← AList.mem_keys, ← AList.mem_keys]
    exact ⟨fun h => h.2, fun h => ⟨((hin key).mp h).1, h⟩⟩
  have hsplit := List.length_eq_length_filter_add (l := r.assemblies.keys)
    fun key => decide (key ∈ (sweepExpired r now).2.assemblies)
  have hswept' := hswept.length_eq
  simp only [decide_not] at hswept'
  refine ⟨hswept.length_eq, ?_⟩
  rw [hkept.length_eq, hswept'] at hsplit
  exact hsplit

end

/-! ## The books -/

/-- A packet whose fragment finds its assembly and leaves it incomplete. -/
def advances (config : MeshtasticConfig) (s : Session) : SessionEvent → Bool
  | .packet _ _ packet => (packetFragment config packet).any fun p =>
      (s.reassembler.assemblies.lookup ⟨p.1, p.2.messageId⟩).any fun a =>
        a.stays s.reassembler.config p.2
  | _ => false

/-- What the metrics stand for, with a number of `extra` entries for assemblies
started. -/
structure Ledger (s : Session) (h : List Lifecycle) (extra : ℕ) : Prop where
  /-- Every assembly created has come to an end or is pending. -/
  account : createdCount h = endedCount .completed h + endedCount .conflict h +
    endedCount .rejection h + endedCount .expiry h + s.reassembler.pendingLen
  started : s.metrics.reassembly.started = createdCount h + extra
  completed : s.metrics.reassembly.completed = endedCount .completed h
  conflict : s.metrics.reassembly.conflict = endedCount .conflict h
  /-- Refused fragments are counted with the rejected assemblies. -/
  oversize : endedCount .rejection h ≤ s.metrics.reassembly.oversize
  expired : s.metrics.reassembly.expired = endedCount .expiry h
  pending : s.metrics.reassembly.pending = s.reassembler.pendingLen

/-- What the metrics are for: the assemblies started are those created, and each of them
is accounted for. -/
structure Balanced (s : Session) (h : List Lifecycle) : Prop where
  started : s.metrics.reassembly.started = createdCount h
  balance : s.metrics.reassembly.started = s.metrics.reassembly.completed +
    endedCount .conflict h + endedCount .rejection h + s.metrics.reassembly.expired +
      s.reassembler.pendingLen

section

variable {prost : Prost} {sha256 : Sha256} {config : MeshtasticConfig} {s s' : Session}
  {h o : List Lifecycle} {extra : ℕ}

theorem ledger_start (config : MeshtasticConfig) : Ledger (.start config) [] 0 where
  account := rfl
  started := rfl
  completed := rfl
  conflict := rfl
  oversize := Nat.le_refl _
  expired := rfl
  pending := rfl

/-- Books are balanced when there are no extra entries. -/
theorem Ledger.balanced_iff_extra (hl : Ledger s h extra) : Balanced s h ↔ extra = 0 := by
  have hstarted := hl.started
  constructor
  · intro hb
    have := hb.started
    omega
  · rintro rfl
    refine ⟨hl.started, ?_⟩
    rw [hl.started, hl.completed, hl.expired, hl.account]
    omega

/-- The books after a session has moved on without its reassembler. -/
theorem Ledger.phase (hl : Ledger s h extra) (phase : Phase) :
    Ledger { s with phase := phase } (h ++ []) extra := by
  rw [List.append_nil]
  exact ⟨hl.account, hl.started, hl.completed, hl.conflict, hl.oversize, hl.expired, hl.pending⟩

theorem Ledger.fragment (hl : Ledger s h extra) {r' : Reassembler} {key : Key}
    {f : FragmentFrame} {outcome : Outcome} {m : Metrics} (phase : Phase)
    (heffect : FragmentEffect s.reassembler r' key f outcome)
    (hm : m.reassembly = s.metrics.reassembly.count outcome) :
    Ledger ⟨r', { m with reassembly.pending := r'.pendingLen }, phase⟩
      (h ++ lifecycleOfFragment s.reassembler r' key outcome)
      (extra + if key ∈ s.reassembler.assemblies ∧ outcome = .progress then 1 else 0) := by
  obtain ⟨haccount, hstarted, hcompleted, hconflict, hoversize, hexpired, hpending⟩ := hl
  unfold lifecycleOfFragment
  cases heffect with
  | created hfresh hthere hmore =>
    rw [if_neg hfresh, if_pos hthere, if_neg fun hboth => hfresh hboth.1]
    constructor
    all_goals simp [hm, ReassemblyMetrics.count]
    all_goals omega
  | refused reason hfresh hsame =>
    subst hsame
    rw [if_neg hfresh, if_neg hfresh, if_neg fun hboth => hfresh hboth.1, List.append_nil]
    constructor
    all_goals simp [hm, ReassemblyMetrics.count]
    all_goals omega
  | repeated hthere hsame =>
    subst hsame
    rw [if_pos hthere, if_pos hthere, if_neg (by simp), List.append_nil]
    constructor
    all_goals simp [hm, ReassemblyMetrics.count]
    all_goals omega
  | advanced hbefore hafter hsame =>
    rw [if_pos hbefore, if_pos hafter, if_pos ⟨hbefore, rfl⟩, List.append_nil]
    constructor
    all_goals simp [hm, ReassemblyMetrics.count]
    all_goals omega
  | ended outcome fate hfate hbefore hafter hless =>
    have hnot : outcome ≠ .progress := by
      rintro rfl
      exact absurd hfate (by simp [Outcome.fate])
    rw [if_pos hbefore, if_neg hafter, if_neg fun hboth => hnot hboth.2, hfate]
    cases outcome with
    | progress => exact absurd rfl hnot
    | duplicateIgnored => exact absurd hfate (by simp [Outcome.fate])
    | complete payload =>
      obtain rfl : Fate.completed = fate := Option.some.inj hfate
      constructor
      all_goals simp [hm, ReassemblyMetrics.count]
      all_goals omega
    | conflict =>
      obtain rfl : Fate.conflict = fate := Option.some.inj hfate
      constructor
      all_goals simp [hm, ReassemblyMetrics.count]
      all_goals omega
    | rejected reason =>
      obtain rfl : Fate.rejection = fate := Option.some.inj hfate
      constructor
      all_goals simp [hm, ReassemblyMetrics.count]
      all_goals omega

/-- A packet advances an assembly when its fragment finds one and makes progress. -/
theorem advances_iff {now : Instant} {receivedAt : BatchStore.Timestamp} {packet : FromRadio}
    {meshSender : UInt32} {f : FragmentFrame} {outcome : Outcome} {r' : Reassembler}
    (hfragment : packetFragment config packet = some (meshSender, f))
    (haccept : accept sha256 s.reassembler now meshSender f = some (outcome, r')) :
    advances config s (.packet now receivedAt packet) = true ↔
      (⟨meshSender, f.messageId⟩ : Key) ∈ s.reassembler.assemblies ∧ outcome = .progress := by
  rw [advances, hfragment, Option.any_some]
  rw [accept_eq_verdict] at haccept
  obtain ⟨⟨o, change⟩, hverdict, heq⟩ := Option.map_eq_some_iff.mp haccept
  obtain ⟨rfl, -⟩ := Prod.mk.inj heq
  rw [← AList.lookup_isSome]
  cases hlookup : s.reassembler.assemblies.lookup ⟨meshSender, f.messageId⟩ with
  | none => simp
  | some a =>
    rw [hlookup] at hverdict
    rw [Option.any_some, ← progress_iff_stays hverdict]
    simp

theorem Ledger.packet (hl : Ledger s h extra) {now : Instant}
    {receivedAt : BatchStore.Timestamp} {packet : FromRadio} {message : Option IngressMessage}
    {r' : Reassembler} {m' : Metrics} (phase : Phase)
    (hhandle : handlePacket prost sha256 config s.reassembler s.metrics now receivedAt packet =
      some (message, r', m')) :
    Ledger ⟨r', { m' with reassembly.pending := r'.pendingLen }, phase⟩
      (h ++ lifecycleOfPacket sha256 config s.reassembler now packet)
      (extra + if advances config s (.packet now receivedAt packet) then 1 else 0) := by
  have heq := handlePacket_reassembly prost sha256 config s.reassembler s.metrics now receivedAt
    packet
  rw [hhandle, Option.map_some] at heq
  unfold lifecycleOfPacket
  cases hfragment : packetFragment config packet with
  | none =>
    rw [hfragment] at heq
    obtain ⟨rfl, hm⟩ := Prod.mk.inj (Option.some.inj heq)
    have hnot : advances config s (.packet now receivedAt packet) = false := by
      rw [advances, hfragment, Option.any_none]
    rw [hnot, if_neg Bool.false_ne_true, Nat.add_zero, List.append_nil]
    dsimp only at hm
    refine ⟨hl.account, ?_, ?_, ?_, ?_, ?_, rfl⟩
    all_goals
      dsimp only
      rw [hm]
    · exact hl.started
    · exact hl.completed
    · exact hl.conflict
    · exact hl.oversize
    · exact hl.expired
  | some p =>
    obtain ⟨meshSender, f⟩ := p
    rw [hfragment] at heq
    obtain ⟨⟨outcome, r₁⟩, haccept, hpair⟩ := Option.map_eq_some_iff.mp heq.symm
    obtain ⟨rfl, hm⟩ := Prod.mk.inj hpair
    have heffect := fragmentEffect_of_accept (valid_of_packetFragment hfragment) haccept
    have hledger := hl.fragment phase heffect hm.symm
    rw [if_congr (advances_iff hfragment haccept) rfl rfl]
    dsimp only
    rw [haccept]
    exact hledger

theorem countEvicted_reassembly (m : Metrics) (evicted : ℕ) :
    (m.countEvicted evicted).reassembly =
      { m.reassembly with expired := m.reassembly.expired + evicted } := by
  unfold Metrics.countEvicted
  split
  · rfl
  · next hzero =>
    have hevicted : evicted = 0 := by omega
    rw [hevicted]
    rfl

theorem Ledger.sweep (hl : Ledger s h extra) (now : Instant) (phase : Phase) :
    Ledger ⟨(sweepExpired s.reassembler now).2,
        { s.metrics.countEvicted (sweepExpired s.reassembler now).1 with
          reassembly.pending := (sweepExpired s.reassembler now).2.pendingLen }, phase⟩
      (h ++ lifecycleOfSweep s.reassembler (sweepExpired s.reassembler now).2) extra := by
  obtain ⟨hlength, hpendingLen⟩ := length_swept s.reassembler now
  have hcreated : createdCount
      (lifecycleOfSweep s.reassembler (sweepExpired s.reassembler now).2) = 0 := by
    rw [createdCount, lifecycleOfSweep, List.countP_map, List.countP_eq_zero]
    intro key _
    exact Bool.false_ne_true
  have hended : ∀ fate, endedCount fate
      (lifecycleOfSweep s.reassembler (sweepExpired s.reassembler now).2) =
        if fate = .expiry then (sweepExpired s.reassembler now).1 else 0 := by
    intro fate
    rw [endedCount, lifecycleOfSweep, List.countP_map]
    split
    · next hfate =>
      subst hfate
      rw [← hlength, List.countP_eq_length]
      intro key _
      rfl
    · next hfate =>
      rw [List.countP_eq_zero]
      intro key _ hkey
      exact hfate (of_decide_eq_true hkey).symm
  obtain ⟨haccount, hstarted, hcompleted, hconflict, hoversize, hexpired, hpending⟩ := hl
  constructor
  all_goals simp [hcreated, hended, countEvicted_reassembly]
  all_goals omega

theorem Ledger.step (hl : Ledger s h extra) {e : SessionEvent}
    (hstep : (session prost sha256 config).step s e = some (s', o)) :
    Ledger s' (h ++ o) (extra + if advances config s e then 1 else 0) := by
  obtain ⟨r, m, phase⟩ := s
  cases e with
  | shutdown =>
    cases phase with
    | ended why => exact absurd hstep (by simp [session, sessionStep])
    | _ =>
      obtain ⟨rfl, rfl⟩ := Prod.mk.inj (Option.some.inj hstep)
      exact hl.phase _
  | sweep now =>
    cases phase with
    | receiving =>
      obtain ⟨rfl, rfl⟩ := Prod.mk.inj (Option.some.inj hstep)
      exact hl.sweep now .receiving
    | _ => exact absurd hstep (by simp [session, sessionStep])
  | packet now receivedAt packet =>
    cases phase with
    | receiving =>
      obtain ⟨⟨message, r', m'⟩, hhandle, heq⟩ := Option.map_eq_some_iff.mp hstep
      obtain ⟨rfl, rfl⟩ := Prod.mk.inj heq
      exact hl.packet _ hhandle
    | _ => exact absurd hstep (by simp [session, sessionStep])
  | closed =>
    cases phase with
    | receiving =>
      obtain ⟨rfl, rfl⟩ := Prod.mk.inj (Option.some.inj hstep)
      exact hl.phase _
    | _ => exact absurd hstep (by simp [session, sessionStep])
  | sent ok =>
    cases phase with
    | sending message =>
      obtain ⟨rfl, rfl⟩ := Prod.mk.inj (Option.some.inj hstep)
      exact hl.phase _
    | _ => exact absurd hstep (by simp [session, sessionStep])

/-- **The books of a run.**  There are extra entries exactly if some packet so far has
advanced an assembly. -/
theorem ledger_of_exec {es : List SessionEvent}
    (hrun : (session prost sha256 config).exec (.start config) es = some (s, h)) :
    ∃ extra, Ledger s h extra ∧
      (extra = 0 ↔ (session prost sha256 config).StepsMeet
        (fun s e => advances config s e = false) (.start config) es) := by
  refine EventMachine.exec_induction
    (P := fun es h s => ∃ extra, Ledger s h extra ∧
      (extra = 0 ↔ (session prost sha256 config).StepsMeet
        (fun s e => advances config s e = false) (.start config) es))
    ⟨0, ledger_start config, iff_of_true rfl trivial⟩ ?_ hrun
  rintro es h s e t o hes ⟨extra, hl, hiff⟩ hstep
  refine ⟨_, hl.step hstep, ?_⟩
  rw [EventMachine.stepsMeet_snoc hes, ← hiff]
  cases advances config s e <;> simp

end

/-- **When the books are balanced.**  At any moment of any session the metric for
assemblies started is the number of those created, and everything it counts is
accounted for, if and only if no packet so far has advanced an assembly without
filling it. -/
theorem balanced_iff (prost : Prost) (sha256 : Sha256) (config : MeshtasticConfig)
    (es : List SessionEvent) (s : Session) (h : List Lifecycle)
    (hrun : (session prost sha256 config).exec (.start config) es = some (s, h)) :
    Balanced s h ↔ (session prost sha256 config).StepsMeet
      (fun s e => advances config s e = false) (.start config) es := by
  obtain ⟨extra, hl, hiff⟩ := ledger_of_exec hrun
  rw [hl.balanced_iff_extra, hiff]

/-- The default limits. -/
def privateApp : MeshtasticConfig := ⟨256, 4096, 16, 128, 8, 60, 300⟩

/-- An authenticated fragment of sender 7, with this descriptor and body. -/
def fragmentPacket (descriptor : UInt8) (body : Bytes) : FromRadio :=
  ⟨some (.packet ⟨7, true, some (.decoded ⟨256,
    0x41 :: [141, 95, 203, 202, 53, 86] ++ descriptor :: body, 0⟩)⟩)⟩

/-- The first two of three fragments. -/
def twoOfThree : List SessionEvent :=
  [.packet 0 ⟨0⟩ (fragmentPacket 0x20 (List.replicate 211 0)),
    .packet 1 ⟨1⟩ (fragmentPacket 0x21 (List.replicate 211 0))]

/-- Two fragments are counted as two assemblies started. -/
theorem not_balanced_twoOfThree :
    ∃ s h, (session Wire.wire (fun _ => zerosDigest) privateApp).exec (.start privateApp)
        twoOfThree = some (s, h) ∧
      s.metrics.reassembly.started = 2 ∧ createdCount h = 1 ∧ s.reassembler.pendingLen = 1 ∧
      ¬ Balanced s h := by
  have hrun : (((session Wire.wire (fun _ => zerosDigest) privateApp).exec (.start privateApp)
      twoOfThree).map fun p => (p.1.metrics.reassembly.started, createdCount p.2,
        p.1.reassembler.pendingLen)) = some (2, 1, 1) := by
    decide +kernel
  obtain ⟨⟨s, h⟩, hexec, heq⟩ := Option.map_eq_some_iff.mp hrun
  obtain ⟨hstarted, hpair⟩ := Prod.mk.inj heq
  obtain ⟨hcreated, hpending⟩ := Prod.mk.inj hpair
  refine ⟨s, h, hexec, hstarted, hcreated, hpending, fun hb => ?_⟩
  have := hb.started
  rw [hstarted, hcreated] at this
  exact absurd this (by decide)

/-- Two fragments, one of them twice, and a sweep. -/
def twoOfTwo : List SessionEvent :=
  [.packet 0 ⟨0⟩ (fragmentPacket 0x11 [7]), .packet 1 ⟨1⟩ (fragmentPacket 0x11 [7]), .sweep 2,
    .packet 3 ⟨3⟩ (fragmentPacket 0x10 (List.replicate 211 0))]

theorem balanced_iff_twoOfTwo :
    ∃ s h, (session Wire.wire (fun _ => zerosDigest) privateApp).exec (.start privateApp)
        twoOfTwo = some (s, h) ∧
      s.metrics.reassembly.completed = 1 ∧ Balanced s h := by
  have hrun : (((session Wire.wire (fun _ => zerosDigest) privateApp).exec (.start privateApp)
      twoOfTwo).map fun p => p.1.metrics.reassembly.completed) = some 1 := by
    decide +kernel
  obtain ⟨⟨s, h⟩, hexec, hcompleted⟩ := Option.map_eq_some_iff.mp hrun
  exact ⟨s, h, hexec, hcompleted,
    (balanced_iff Wire.wire _ privateApp twoOfTwo s h hexec).mpr (by decide +kernel)⟩

end Meshtastic
end Robins
