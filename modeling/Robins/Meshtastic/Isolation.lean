import Robins.Meshtastic.Verdict
import Robins.Meshtastic.Soundness
import Robins.Lib.Unwinding

/-!
# Senders do not disturb each other

One map holds the assemblies of all senders, and one limit counts them.  A fragment all the same
touches no assembly but the one under its own key, and an answer that refuses or ignores it touches
nothing at all: `AcceptFrame` says which answers change what, and holds of any state whatever.

Over runs this becomes a statement about two of them.  `SameFor` relates two reassemblers that hold
the same assemblies of one sender; about the others it says nothing.  As the places are counted
right in both, the sender's counter is the same too (`SameFor.senderCount_eq`).  It is an unwinding
for that sender: a packet of somebody else moves one of the two and shows the sender nothing
(`SameFor.other`), and what concerns the sender moves both alike (`SameFor.own`).  Sweeps and the
loss of the session concern everybody.

There is one thing the senders do share, the limit on all assemblies, and through it one can notice
another: its fragment is refused where alone it would not have been.  So the two runs are compared
while that limit is not reached when a packet of the sender arrives (`HasRoom`).  Its own limit it
may reach, and will reach it in both.
-/

namespace Robins
namespace Meshtastic

/-! ## One fragment -/

/-- Nothing but the assembly under a key and its sender's counter may differ. -/
structure OnlyAt (key : Key) (r r' : Reassembler) : Prop where
  config_eq : r'.config = r.config
  assemblies_eq : ∀ k, k ≠ key → r'.assemblies.lookup k = r.assemblies.lookup k
  counter_eq : ∀ sender, sender ≠ key.sender →
    r'.pendingPerSender.lookup sender = r.pendingPerSender.lookup sender

/-- Exactly the assembly under a key is gone, and its place with it. -/
structure RemovesOnly (key : Key) (r r' : Reassembler) : Prop extends OnlyAt key r r' where
  gone : r'.assemblies.lookup key = none
  place : places r' key.sender = places r key.sender - if key ∈ r.assemblies then 1 else 0

theorem onlyAt_apply (r : Reassembler) (key : Key) (change : Change) :
    OnlyAt key r (change.apply r key) where
  config_eq := config_apply r key change
  assemblies_eq k hk := by rw [lookup_apply, if_neg hk]
  counter_eq _ h := lookup_pending_apply r change h

theorem removesOnly_discard (r : Reassembler) (key : Key) : RemovesOnly key r (discard r key) where
  toOnlyAt := onlyAt_apply r key .removed
  gone := by rw [lookup_discard, if_pos rfl]
  place := places_discard r key

/-- An assembly that takes a place and gives it back leaves no trace. -/
theorem removesOnly_passed {r : Reassembler} {key : Key} (h : r.assemblies.lookup key = none)
    (a : Assembly) : RemovesOnly key r ((Change.passed a).apply r key) where
  toOnlyAt := onlyAt_apply r key (.passed a)
  gone := by rw [lookup_apply, if_pos rfl, Change.after]
  place := by
    have hbegun : key ∈ (begin r key a).assemblies := (AList.mem_insert _).mpr (.inl rfl)
    have hplaces : places (begin r key a) key.sender = places r key.sender + 1 := by
      rw [places, begin, AList.lookup_insert, Option.getD_some]
    rw [Change.apply, places_discard, if_pos hbegun, hplaces,
      if_neg (AList.lookup_eq_none.mp h)]
    omega

/-- What an answer says about the state left behind. -/
structure AcceptFrame (key : Key) (r : Reassembler) (outcome : Outcome) (r' : Reassembler) :
    Prop where
  onlyAt : OnlyAt key r r'
  /-- No room: nothing has changed. -/
  refused : outcome = .rejected .tooManyFragments ∨ outcome = .rejected .pendingLimitGlobal ∨
    outcome = .rejected .pendingLimitPerSender → r' = r
  oversizeNew : outcome = .rejected .oversize → key ∉ r.assemblies → r' = r
  /-- Nothing has changed, the last progress included. -/
  duplicate : outcome = .duplicateIgnored → r' = r
  ended : (outcome = .conflict ∨ (outcome = .rejected .oversize ∧ key ∈ r.assemblies) ∨
    outcome = .rejected .messageIdMismatch ∨ ∃ payload, outcome = .complete payload) →
      RemovesOnly key r r'

/-- An answer that leaves the state as it was. -/
theorem acceptFrame_kept {key : Key} {r : Reassembler} {outcome : Outcome}
    (h : outcome = .duplicateIgnored ∨ (outcome ≠ .rejected .messageIdMismatch ∧
      key ∉ r.assemblies ∧ ∃ reason, outcome = .rejected reason)) :
    AcceptFrame key r outcome r where
  onlyAt := onlyAt_apply r key .kept
  refused _ := rfl
  oversizeNew _ _ := rfl
  duplicate _ := rfl
  ended hend := by
    rcases h with rfl | ⟨hne, hfresh, reason, rfl⟩
    · rcases hend with h | ⟨h, -⟩ | h | ⟨payload, h⟩
      all_goals exact absurd h (by simp)
    · rcases hend with h | ⟨-, h⟩ | h | ⟨payload, h⟩
      · exact absurd h (by simp)
      · exact absurd h hfresh
      · exact absurd h hne
      · exact absurd h (by simp)

theorem acceptFrame_progress {key : Key} {r r' : Reassembler} (h : OnlyAt key r r') :
    AcceptFrame key r .progress r' where
  onlyAt := h
  refused hr := by simp at hr
  oversizeNew hr := by simp at hr
  duplicate hr := by simp at hr
  ended hr := by simp at hr

theorem acceptFrame_ended {key : Key} {r r' : Reassembler} {outcome : Outcome}
    (h : RemovesOnly key r r') (hout : outcome = .conflict ∨
      (outcome = .rejected .oversize ∧ key ∈ r.assemblies) ∨
      outcome = .rejected .messageIdMismatch ∨ ∃ payload, outcome = .complete payload) :
    AcceptFrame key r outcome r' where
  onlyAt := h.toOnlyAt
  refused hr := by
    rcases hout with rfl | ⟨rfl, -⟩ | rfl | ⟨payload, rfl⟩
    all_goals simp at hr
  oversizeNew hr hfresh := by
    rcases hout with rfl | ⟨-, hmem⟩ | rfl | ⟨payload, rfl⟩
    · exact absurd hr (by simp)
    · exact absurd hmem hfresh
    · exact absurd hr (by simp)
    · exact absurd hr (by simp)
  duplicate hr := by
    rcases hout with rfl | ⟨rfl, -⟩ | rfl | ⟨payload, rfl⟩
    all_goals simp at hr
  ended _ := h

section

variable {sha256 : Sha256} {config : ReassemblerConfig} {r r' : Reassembler}

/-- **One fragment disturbs nothing else**, in any state whatever.  No invariant is needed, since
a change is made to one key and to the counter of its sender. -/
theorem acceptFrame_of_accept {now : Instant} {sender : UInt32} {f : FragmentFrame}
    {outcome : Outcome} (h : accept sha256 r now sender f = some (outcome, r')) :
    AcceptFrame ⟨sender, f.messageId⟩ r outcome r' := by
  obtain ⟨change, rfl, hd⟩ := decides_of_accept h
  have hclosing : ∀ a, closing sha256 f.messageId a = .conflict ∨
      (closing sha256 f.messageId a = .rejected .oversize ∧
        (⟨sender, f.messageId⟩ : Key) ∈ r.assemblies) ∨
      closing sha256 f.messageId a = .rejected .messageIdMismatch ∨
      ∃ payload, closing sha256 f.messageId a = .complete payload := by
    intro a
    rcases closing_cases sha256 f.messageId a with hc | hc | hc
    · exact .inl hc
    · exact .inr (.inr (.inl hc))
    · exact .inr (.inr (.inr hc))
  cases hd with
  | tooMany hfresh =>
    exact acceptFrame_kept (.inr ⟨by simp, AList.lookup_eq_none.mp hfresh, _, rfl⟩)
  | fullGlobal hfresh _ =>
    exact acceptFrame_kept (.inr ⟨by simp, AList.lookup_eq_none.mp hfresh, _, rfl⟩)
  | fullPerSender hfresh _ =>
    exact acceptFrame_kept (.inr ⟨by simp, AList.lookup_eq_none.mp hfresh, _, rfl⟩)
  | large hfresh =>
    exact acceptFrame_kept (.inr ⟨by simp, AList.lookup_eq_none.mp hfresh, _, rfl⟩)
  | begun _ _ _ => exact acceptFrame_progress (onlyAt_apply r _ _)
  | passed hfresh _ _ _ => exact acceptFrame_ended (removesOnly_passed hfresh _) (hclosing _)
  | repeated a _ => exact acceptFrame_kept (.inl rfl)
  | advanced a _ => exact acceptFrame_progress (onlyAt_apply r _ _)
  | conflict a _ => exact acceptFrame_ended (removesOnly_discard r _) (.inl rfl)
  | oversize a hthere =>
    exact acceptFrame_ended (removesOnly_discard r _) (.inr (.inl ⟨rfl, mem_of_lookup hthere⟩))
  | closed a _ => exact acceptFrame_ended (removesOnly_discard r _) (hclosing _)

/-! ## What a sender can see -/

/-- The events that concern a sender: its own packets, and what happens to all. -/
def Event.concerns (sender : UInt32) : Event → Bool
  | .packet _ from' _ => from' = sender
  | .sweep _ => true
  | .clear => true

/-- The answers to a sender's fragments. -/
def Observation.answers (sender : UInt32) : Observation → Bool
  | .accepted from' _ _ => from' = sender
  | _ => false

/-- When a packet of the sender arrives, the limit shared by all is not reached. -/
def HasRoom (sender : UInt32) (r : Reassembler) : Event → Prop
  | .packet _ from' _ => from' = sender → r.pendingLen < r.config.maxPending
  | _ => True

instance (sender : UInt32) (r : Reassembler) (e : Event) : Decidable (HasRoom sender r e) := by
  cases e <;> unfold HasRoom <;> infer_instance

/-- Two reassemblers that hold the same of one sender. -/
structure SameFor (config : ReassemblerConfig) (sender : UInt32) (r r' : Reassembler) : Prop where
  left : Accounted config r
  right : Accounted config r'
  lookup_eq : ∀ k : Key, k.sender = sender → r.assemblies.lookup k = r'.assemblies.lookup k

theorem SameFor.symm {sender : UInt32} (h : SameFor config sender r r') :
    SameFor config sender r' r :=
  ⟨h.right, h.left, fun k hk => (h.lookup_eq k hk).symm⟩

/-- The sender then has as many assemblies in the one as in the other. -/
theorem SameFor.senderCount_eq {sender : UInt32} (h : SameFor config sender r r') :
    senderCount r sender = senderCount r' sender := by
  unfold senderCount
  rw [List.countP_eq_length_filter, List.countP_eq_length_filter]
  refine List.Perm.length_eq ((List.perm_ext_iff_of_nodup
    (r.assemblies.keys_nodup.filter _) (r'.assemblies.keys_nodup.filter _)).mpr fun k => ?_)
  rw [List.mem_filter, List.mem_filter, decide_eq_true_eq]
  refine and_congr_left fun hk => ?_
  rw [← AList.mem_keys, ← AList.mem_keys, ← AList.lookup_isSome, ← AList.lookup_isSome,
    h.lookup_eq k hk]

theorem mem_expiredKeys {now : Instant} {k : Key} :
    k ∈ expiredKeys r now ↔
      ∃ a, r.assemblies.lookup k = some a ∧ expired r.config now a = true := by
  unfold expiredKeys
  rw [List.mem_map]
  constructor
  · rintro ⟨⟨k', a⟩, hentry, rfl⟩
    obtain ⟨hmem, hexp⟩ := List.mem_filter.mp hentry
    exact ⟨a, AList.mem_lookup_iff.mpr hmem, hexp⟩
  · rintro ⟨a, hlookup, hexp⟩
    exact ⟨⟨k, a⟩, List.mem_filter.mpr ⟨AList.mem_lookup_iff.mp hlookup, hexp⟩, rfl⟩

theorem accounted_of_step {e : Event} {o : List Observation} (h : Accounted config r)
    (hstep : (reassembler sha256).step r e = some (r', o)) : Accounted config r' := by
  cases e with
  | packet now sender payload =>
    obtain ⟨f, outcome, -, haccept, -⟩ := exists_accept_of_step hstep
    obtain ⟨change, rfl, hd⟩ := decides_of_accept haccept
    exact h.apply hd
  | sweep now =>
    obtain ⟨rfl, rfl⟩ := Prod.mk.inj (Option.some.inj hstep)
    exact h.foldl_discard _
  | clear =>
    obtain ⟨rfl, rfl⟩ := Prod.mk.inj (Option.some.inj hstep)
    exact h.clear

theorem SameFor.other {sender : UInt32} {e : Event} {r₁ : Reassembler} {o : List Observation}
    (h : SameFor config sender r r') (he : e.concerns sender = false)
    (hstep : (reassembler sha256).step r e = some (r₁, o)) :
    SameFor config sender r₁ r' ∧ o.filter (Observation.answers sender) = [] := by
  have hacc := accounted_of_step h.left hstep
  cases e with
  | packet now from' payload =>
    have hother : from' ≠ sender := of_decide_eq_false he
    obtain ⟨f, outcome, -, haccept, rfl⟩ := exists_accept_of_step hstep
    have honly := (acceptFrame_of_accept haccept).onlyAt
    refine ⟨⟨hacc, h.right, fun k hk => ?_⟩, ?_⟩
    · have hne : k ≠ ⟨from', f.messageId⟩ := by
        rintro rfl
        exact hother hk
      rw [honly.assemblies_eq k hne, h.lookup_eq k hk]
    · exact List.filter_cons_of_neg (by simpa [Observation.answers] using hother)
  | sweep now => exact absurd he (by simp [Event.concerns])
  | clear => exact absurd he (by simp [Event.concerns])

/-- A packet of the sender is answered alike, and does the same to its assembly. -/
theorem SameFor.accept {sender : UInt32} {now : Instant} {f : FragmentFrame}
    {outcome outcome' : Outcome} {r₁ r₁' : Reassembler} (h : SameFor config sender r r')
    (hroom : r.pendingLen < r.config.maxPending) (hroom' : r'.pendingLen < r'.config.maxPending)
    (haccept : Meshtastic.accept sha256 r now sender f = some (outcome, r₁))
    (haccept' : Meshtastic.accept sha256 r' now sender f = some (outcome', r₁')) :
    outcome = outcome' ∧
      r₁.assemblies.lookup ⟨sender, f.messageId⟩ = r₁'.assemblies.lookup ⟨sender, f.messageId⟩ := by
  rw [accept_eq_verdict] at haccept haccept'
  obtain ⟨⟨o, change⟩, hverdict, heq⟩ := Option.map_eq_some_iff.mp haccept
  obtain ⟨⟨o', change'⟩, hverdict', heq'⟩ := Option.map_eq_some_iff.mp haccept'
  -- below the limit the number of all assemblies plays no part
  have hpending : ∀ slot, verdict sha256 config r.pendingLen (places r sender) slot now f =
      verdict sha256 config r'.pendingLen (places r' sender) slot now f := by
    intro slot
    have hplaces : places r sender = places r' sender := by
      rw [h.left.places_eq, h.right.places_eq, h.senderCount_eq]
    rw [h.left.config_eq] at hroom
    rw [h.right.config_eq] at hroom'
    cases slot with
    | some a => rfl
    | none =>
      unfold verdict
      dsimp only
      rw [hplaces, if_neg (Nat.not_le.mpr hroom), if_neg (Nat.not_le.mpr hroom')]
  have hslot := h.lookup_eq ⟨sender, f.messageId⟩ rfl
  rw [h.left.config_eq, hpending, hslot] at hverdict
  rw [h.right.config_eq, hverdict] at hverdict'
  obtain ⟨rfl, rfl⟩ := Prod.mk.inj (Option.some.inj hverdict')
  obtain ⟨rfl, rfl⟩ := Prod.mk.inj heq
  obtain ⟨rfl, rfl⟩ := Prod.mk.inj heq'
  refine ⟨rfl, ?_⟩
  dsimp only
  rw [lookup_apply, lookup_apply, if_pos rfl, if_pos rfl, hslot]

theorem SameFor.own {sender : UInt32} {e : Event} {r₁ r₁' : Reassembler}
    {o o' : List Observation} (h : SameFor config sender r r')
    (he : e.concerns sender = true) (hroom : HasRoom sender r e) (hroom' : HasRoom sender r' e)
    (hstep : (reassembler sha256).step r e = some (r₁, o))
    (hstep' : (reassembler sha256).step r' e = some (r₁', o')) :
    SameFor config sender r₁ r₁' ∧
      o.filter (Observation.answers sender) = o'.filter (Observation.answers sender) := by
  have hacc := accounted_of_step h.left hstep
  have hacc' := accounted_of_step h.right hstep'
  cases e with
  | packet now from' payload =>
    obtain rfl : from' = sender := of_decide_eq_true he
    obtain ⟨f, outcome, hparse, haccept, rfl⟩ := exists_accept_of_step hstep
    obtain ⟨g, outcome', hparse', haccept', rfl⟩ := exists_accept_of_step hstep'
    obtain rfl : f = g := by
      rw [hparse] at hparse'
      simpa using hparse'
    obtain ⟨rfl, hat⟩ := h.accept (hroom rfl) (hroom' rfl) haccept haccept'
    have honly := (acceptFrame_of_accept haccept).onlyAt
    have honly' := (acceptFrame_of_accept haccept').onlyAt
    refine ⟨⟨hacc, hacc', fun k hk => ?_⟩, rfl⟩
    by_cases hkey : k = ⟨from', f.messageId⟩
    · subst hkey
      exact hat
    · rw [honly.assemblies_eq k hkey, honly'.assemblies_eq k hkey, h.lookup_eq k hk]
  | sweep now =>
    obtain ⟨rfl, rfl⟩ := Prod.mk.inj (Option.some.inj hstep)
    obtain ⟨rfl, rfl⟩ := Prod.mk.inj (Option.some.inj hstep')
    refine ⟨⟨hacc, hacc', fun k hk => ?_⟩, rfl⟩
    have hexp : k ∈ expiredKeys r now ↔ k ∈ expiredKeys r' now := by
      rw [mem_expiredKeys, mem_expiredKeys, h.lookup_eq k hk, h.left.config_eq,
        h.right.config_eq]
    rw [sweepExpired, sweepExpired, lookup_foldl_discard, lookup_foldl_discard,
      h.lookup_eq k hk, if_congr hexp rfl rfl]
  | clear =>
    obtain ⟨rfl, rfl⟩ := Prod.mk.inj (Option.some.inj hstep)
    obtain ⟨rfl, rfl⟩ := Prod.mk.inj (Option.some.inj hstep')
    exact ⟨⟨hacc, hacc', fun _ _ => rfl⟩, rfl⟩

/-- What a sender sees of the others is nothing. -/
theorem sameFor_unwinds (sha256 : Sha256) (config : ReassemblerConfig) (sender : UInt32) :
    (reassembler sha256).Unwinds (Event.concerns sender) (Observation.answers sender)
      (HasRoom sender) (SameFor config sender) where
  symm _ _ h := h.symm
  unseen _ _ _ _ _ h he hstep := h.other he hstep
  seen _ _ _ _ _ _ _ h he hroom hroom' hstep hstep' := h.own he hroom hroom' hstep hstep'

end

/-- **Assemblies are isolated.**  A fragment disturbs no other assembly and each
answer leaves exactly what it should; and a sender's answers do not depend on what
the others send, as long as the limit they share is not reached. -/
theorem assemblies_isolated (sha256 : Sha256) :
    (∀ (r r' : Reassembler) (now : Instant) (sender : UInt32) (f : FragmentFrame)
        (outcome : Outcome), accept sha256 r now sender f = some (outcome, r') →
      AcceptFrame ⟨sender, f.messageId⟩ r outcome r') ∧
    (∀ (config : ReassemblerConfig) (sender : UInt32) (es es' : List Event)
        (r r' : Reassembler) (h h' : List Observation),
      (reassembler sha256).exec (.new config) es = some (r, h) →
      (reassembler sha256).exec (.new config) es' = some (r', h') →
      es.filter (Event.concerns sender) = es'.filter (Event.concerns sender) →
      (reassembler sha256).StepsMeet (HasRoom sender) (.new config) es →
      (reassembler sha256).StepsMeet (HasRoom sender) (.new config) es' →
      h.filter (Observation.answers sender) = h'.filter (Observation.answers sender)) := by
  refine ⟨fun r r' now sender f outcome h => acceptFrame_of_accept h, ?_⟩
  intro config sender es es' r r' h h' hrun hrun' hsame hmeet hmeet'
  have hstart : SameFor config sender (.new config) (.new config) :=
    ⟨accounted_new config, accounted_new config, fun _ _ => rfl⟩
  exact ((sameFor_unwinds sha256 config sender).exec hstart hsame hrun hrun' hmeet hmeet').2

/-- The two fragments of sender 7, and between them two of sender 8 that use the same
message id and contradict each other. -/
def crowdedFragments : List Event :=
  [.packet 0 7 (0x41 :: [141, 95, 203, 202, 53, 86] ++ 0x11 :: [7]),
    .packet 0 8 (0x41 :: [141, 95, 203, 202, 53, 86] ++ 0x11 :: [9]),
    .packet 1 7 (0x41 :: [141, 95, 203, 202, 53, 86] ++ 0x11 :: [7]),
    .packet 1 8 (0x41 :: [141, 95, 203, 202, 53, 86] ++ 0x11 :: [7]), .sweep 2,
    .packet 3 7 (0x41 :: [141, 95, 203, 202, 53, 86] ++ 0x10 :: List.replicate 211 0)]

theorem assemblies_isolated_crowdedFragments :
    ∃ r h r' h',
      (reassembler fun _ => zerosDigest).exec (.new ⟨4096, 16, 3, 1, 30, 60⟩) twoFragments =
        some (r, h) ∧
      (reassembler fun _ => zerosDigest).exec (.new ⟨4096, 16, 3, 1, 30, 60⟩)
        crowdedFragments = some (r', h') ∧
      h.filter (Observation.answers 7) = h'.filter (Observation.answers 7) ∧
      AcceptFrame ⟨8, ⟨[141, 95, 203, 202, 53, 86], rfl⟩⟩ (.new ⟨3, 16, 3, 1, 30, 60⟩)
        (.rejected .oversize) (.new ⟨3, 16, 3, 1, 30, 60⟩) := by
  have hsome : ((reassembler fun _ => zerosDigest).exec (.new ⟨4096, 16, 3, 1, 30, 60⟩)
      twoFragments).isSome = true := by
    decide +kernel
  have hsome' : ((reassembler fun _ => zerosDigest).exec (.new ⟨4096, 16, 3, 1, 30, 60⟩)
      crowdedFragments).isSome = true := by
    decide +kernel
  obtain ⟨⟨r, h⟩, hrun⟩ := Option.isSome_iff_exists.mp hsome
  obtain ⟨⟨r', h'⟩, hrun'⟩ := Option.isSome_iff_exists.mp hsome'
  refine ⟨r, h, r', h', hrun, hrun', ?_, ?_⟩
  · exact (assemblies_isolated _).2 _ 7 twoFragments crowdedFragments r r' h h' hrun hrun' rfl
      (by decide +kernel) (by decide +kernel)
  · exact (assemblies_isolated fun _ => zerosDigest).1 _ _ 0 8
      ⟨⟨[141, 95, 203, 202, 53, 86], rfl⟩, 1, 2, [1, 2, 3, 4]⟩ _ rfl

end Meshtastic
end Robins
