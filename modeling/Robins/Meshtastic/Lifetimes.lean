import Robins.Meshtastic.Isolation

/-!
# Lifetimes

An assembly has an idle and an absolute lifetime, and the sweep is the only place where they are
looked at.  Between two sweeps an assembly whose lifetime is over is like any other: it can be
advanced and completed, and it keeps its places.

`Timely` says of an accepted fragment that no assembly that is expired at a moment has been part of
the answer: neither the one it goes into, nor one that takes the place for which it is refused.
For the moment the fragment arrives at this fails, and `lifetimes_not_enforced_by_accept` has a run
for each of the two ways.

For the moment of a sweep it holds from that sweep on.  `Unexpired` is what the sweep establishes,
and as the clock does not go back nothing later can break it: what is stored afterwards has made
progress afterwards, so it is not expired at the earlier moment either (`Unexpired.accept`).  So a
lifetime is over with the first sweep after its end (`lifetimes_end_at_sweeps`).
-/

namespace Robins
namespace Meshtastic

/-- The moment an event happens at. -/
def Event.time : Event → Option Instant
  | .packet now _ _ => some now
  | .sweep now => some now
  | .clear => none

/-- The clock does not go back. -/
def InOrderOfTime (es : List Event) : Prop := (es.filterMap Event.time).Pairwise (· ≤ ·)

instance (es : List Event) : Decidable (InOrderOfTime es) :=
  inferInstanceAs (Decidable (List.Pairwise _ _))

/-- The keys of the assemblies that are not expired at a moment. -/
def unexpiredKeys (r : Reassembler) (t : Instant) : List Key :=
  r.assemblies.keys.filter fun k => k ∉ expiredKeys r t

/-- No assembly that is expired at `t` plays a part in the answer to a fragment. -/
structure Timely (r : Reassembler) (t : Instant) (sender : UInt32) (f : FragmentFrame)
    (outcome : Outcome) : Prop where
  /-- An assembly that is advanced or completed had both lifetimes left. -/
  advanced : (outcome = .progress ∨ ∃ payload, outcome = .complete payload) →
    ∀ a, r.assemblies.lookup ⟨sender, f.messageId⟩ = some a →
      t < a.lastProgress + r.config.idleTimeout ∧ t < a.createdAt + r.config.absoluteTimeout
  /-- The assemblies that had are enough to reach the limit. -/
  fullGlobal : outcome = .rejected .pendingLimitGlobal →
    r.config.maxPending ≤ (unexpiredKeys r t).length
  fullPerSender : outcome = .rejected .pendingLimitPerSender →
    r.config.maxPendingPerSender ≤ ((unexpiredKeys r t).filter fun k => k.sender = sender).length

/-! ## After a sweep -/

/-- No assembly is expired at this moment. -/
def Unexpired (r : Reassembler) (t : Instant) : Prop :=
  ∀ k a, r.assemblies.lookup k = some a → expired r.config t a = false

section

variable {sha256 : Sha256} {config : ReassemblerConfig} {r r' : Reassembler} {t now : Instant}

theorem expired_eq_false {a : Assembly} :
    expired config t a = false ↔
      t - a.lastProgress < config.idleTimeout ∧ t - a.createdAt < config.absoluteTimeout := by
  unfold expired
  rw [decide_eq_false_iff_not, not_or, Nat.not_le, Nat.not_le]

/-- **After a sweep nothing is expired**, and what was not before is not now. -/
theorem unexpired_sweep (r : Reassembler) (now : Instant) :
    Unexpired (sweepExpired r now).2 now := by
  intro k a hlookup
  rw [sweepExpired, lookup_foldl_discard] at hlookup
  split at hlookup
  · exact absurd hlookup (by simp)
  · next hk =>
    have hconfig : (sweepExpired r now).2.config = r.config := config_foldl_discard _ r
    rw [hconfig, ← Bool.not_eq_true]
    intro hexp
    exact hk (mem_expiredKeys.mpr ⟨a, hlookup, hexp⟩)

theorem Unexpired.sweep (h : Unexpired r t) (now : Instant) :
    Unexpired (sweepExpired r now).2 t := by
  intro k a hlookup
  have hconfig : (sweepExpired r now).2.config = r.config := config_foldl_discard _ r
  rw [sweepExpired, lookup_foldl_discard] at hlookup
  split at hlookup
  · exact absurd hlookup (by simp)
  · rw [hconfig]
    exact h k a hlookup

/-- What a later fragment stores is not expired either. -/
theorem Unexpired.accept (h : Unexpired r t) (hidle : 0 < r.config.idleTimeout)
    (habsolute : 0 < r.config.absoluteTimeout) (hle : t ≤ now) {sender : UInt32}
    {f : FragmentFrame} {outcome : Outcome}
    (haccept : accept sha256 r now sender f = some (outcome, r')) : Unexpired r' t := by
  obtain ⟨change, rfl, hd⟩ := decides_of_accept haccept
  have hnow : t - now = 0 := Nat.sub_eq_zero_of_le hle
  intro k a hlookup
  rw [config_apply]
  rw [lookup_apply] at hlookup
  split at hlookup
  · -- the assembly under the key of the fragment
    cases hd with
    | tooMany _ => exact h _ a hlookup
    | fullGlobal _ _ => exact h _ a hlookup
    | fullPerSender _ _ => exact h _ a hlookup
    | large _ => exact h _ a hlookup
    | begun _ _ _ =>
      obtain rfl := Option.some.inj hlookup
      rw [expired_eq_false, Assembly.ofFrame, hnow]
      exact ⟨hidle, habsolute⟩
    | passed _ _ _ _ => exact absurd hlookup (by simp [Change.after])
    | repeated b _ => exact h _ a hlookup
    | advanced b hthere =>
      obtain rfl := Option.some.inj hlookup
      have hcreated := (expired_eq_false.mp (h _ b hthere)).2
      rw [expired_eq_false, Assembly.store_lastProgress, Assembly.store_createdAt, hnow]
      exact ⟨hidle, hcreated⟩
    | conflict b _ => exact absurd hlookup (by simp [Change.after])
    | oversize b _ => exact absurd hlookup (by simp [Change.after])
    | closed b _ => exact absurd hlookup (by simp [Change.after])
  · exact h k a hlookup

/-- When nothing is expired, all keys are those of unexpired assemblies. -/
theorem Unexpired.unexpiredKeys_eq (h : Unexpired r t) : unexpiredKeys r t = r.assemblies.keys := by
  refine List.filter_eq_self.mpr fun k _ => decide_eq_true fun hexp => ?_
  obtain ⟨a, hlookup, ha⟩ := mem_expiredKeys.mp hexp
  rw [h k a hlookup] at ha
  exact Bool.false_ne_true ha

/-- When nothing is expired, nothing expired plays a part. -/
theorem Unexpired.timely (h : Unexpired r t) (hacc : Accounted config r) {sender : UInt32}
    {f : FragmentFrame} {outcome : Outcome}
    (haccept : Meshtastic.accept sha256 r now sender f = some (outcome, r')) :
    Timely r t sender f outcome := by
  obtain ⟨change, -, hd⟩ := decides_of_accept haccept
  refine ⟨fun _ a hlookup => ?_, fun hout => ?_, fun hout => ?_⟩
  · have hlives := expired_eq_false.mp (h _ a hlookup)
    exact ⟨lt_add_of_tsub_lt_left hlives.1, lt_add_of_tsub_lt_left hlives.2⟩
  · rw [h.unexpiredKeys_eq]
    exact hd.full_of_global hout
  · rw [h.unexpiredKeys_eq, ← List.countP_eq_length_filter, ← senderCount, ← hacc.places_eq]
    exact hd.full_of_perSender hout

/-! ## Runs -/

theorem inOrderOfTime_snoc {es : List Event} {e : Event} (h : InOrderOfTime (es ++ [e])) :
    InOrderOfTime es ∧ ∀ e' ∈ es, ∀ t, e'.time = some t → ∀ now, e.time = some now → t ≤ now := by
  unfold InOrderOfTime at h ⊢
  rw [List.filterMap_append, List.pairwise_append] at h
  obtain ⟨hes, -, hle⟩ := h
  refine ⟨hes, fun e' he' t ht now hnow => hle t ?_ now ?_⟩
  · exact List.mem_filterMap.mpr ⟨e', he', ht⟩
  · exact List.mem_filterMap.mpr ⟨e, List.mem_singleton_self e, hnow⟩

/-- **Nothing is expired at the moment of an earlier sweep.**  Assemblies that were there at the
sweep were found unexpired by it, and those that came later are younger. -/
theorem unexpired_of_exec (hidle : 0 < config.idleTimeout)
    (habsolute : 0 < config.absoluteTimeout) {es : List Event} {h : List Observation}
    (hrun : (reassembler sha256).exec (.new config) es = some (r, h))
    (horder : InOrderOfTime es) (t : Instant) (hsweep : Event.sweep t ∈ es) : Unexpired r t := by
  revert horder t hsweep
  refine EventMachine.exec_induction
    (P := fun es _ r => InOrderOfTime es → ∀ t, Event.sweep t ∈ es → Unexpired r t)
    (fun _ t ht => absurd ht List.not_mem_nil) ?_ hrun
  intro es h r e r' o hes ih hstep horder t hsweep
  obtain ⟨hbefore, hle⟩ := inOrderOfTime_snoc horder
  have hacc := (tracks_of_exec hes).accounted
  cases e with
  | packet now sender payload =>
    obtain ⟨f, outcome, -, haccept, -⟩ := exists_accept_of_step hstep
    have hin : Event.sweep t ∈ es := by simpa using hsweep
    refine (ih hbefore t hin).accept ?_ ?_ (hle _ hin t rfl now rfl) haccept
    · rw [hacc.config_eq]
      exact hidle
    · rw [hacc.config_eq]
      exact habsolute
  | sweep now =>
    obtain ⟨rfl, rfl⟩ := Prod.mk.inj (Option.some.inj hstep)
    rcases List.mem_append.mp hsweep with hin | hin
    · exact (ih hbefore t hin).sweep now
    · obtain rfl : t = now := by simpa using hin
      exact unexpired_sweep r t
  | clear =>
    obtain ⟨rfl, rfl⟩ := Prod.mk.inj (Option.some.inj hstep)
    intro k a hlookup
    exact absurd hlookup (by simp [clear])

/-- **A sweep ends the lifetimes.**  In every run whose clock does not go back, no
assembly that was expired at the moment of an earlier sweep is advanced or
completed, or is needed to reach a limit. -/
theorem lifetimes_end_at_sweeps (sha256 : Sha256) (config : ReassemblerConfig)
    (hidle : 0 < config.idleTimeout) (habsolute : 0 < config.absoluteTimeout) (es : List Event)
    (horder : InOrderOfTime es) (t : Instant) (hsweep : Event.sweep t ∈ es) (now : Instant)
    (sender : UInt32) (payload : Bytes) (r r' : Reassembler) (h : List Observation)
    (f : FragmentFrame) (outcome : Outcome)
    (hrun : (reassembler sha256).exec (.new config) es = some (r, h))
    (hstep : (reassembler sha256).step r (.packet now sender payload) =
      some (r', [.accepted sender f outcome])) :
    Timely r t sender f outcome := by
  obtain ⟨g, answer, -, haccept, hobs⟩ := exists_accept_of_step hstep
  obtain ⟨-, rfl, rfl⟩ : sender = sender ∧ f = g ∧ outcome = answer := by simpa using hobs
  exact (unexpired_of_exec hidle habsolute hrun horder t hsweep).timely
    (tracks_of_exec hrun).accounted haccept

end

/-! ## Between two sweeps -/

/-- One place, a minute without progress, five minutes in all. -/
def minuteConfig : ReassemblerConfig := ⟨4096, 16, 1, 1, 60000, 300000⟩

/-- The second of two fragments, and a sweep 59 seconds later. -/
def halfMessage : List Event :=
  [.packet 1000 7 (0x41 :: [141, 95, 203, 202, 53, 86] ++ 0x11 :: [7]), .sweep 60000]

/-- The first of the two fragments. -/
def otherHalf : FragmentFrame := ⟨⟨[141, 95, 203, 202, 53, 86], rfl⟩, 0, 2, List.replicate 211 0⟩

/-- Two seconds after that sweep, the first fragment from a sender. -/
def late (sender : UInt32) : Event :=
  .packet 62000 sender (0x41 :: [141, 95, 203, 202, 53, 86] ++ 0x10 :: List.replicate 211 0)

/-- The answer to a further event, with what the state before it says about expiry. -/
def answerAfter (es : List Event) (e : Event) :
    Option (List Observation × Option Instant × List Key) :=
  ((reassembler fun _ => zerosDigest).exec (.new minuteConfig) es).bind fun p =>
    ((reassembler fun _ => zerosDigest).step p.1 e).map fun q =>
      (q.2, (p.1.assemblies.lookup ⟨7, otherHalf.messageId⟩).map Assembly.lastProgress,
        unexpiredKeys p.1 62000)

theorem exists_of_answerAfter {es : List Event} {e : Event} {o : List Observation}
    {last : Option Instant} {keys : List Key} (h : answerAfter es e = some (o, last, keys)) :
    ∃ r hist r', (reassembler fun _ => zerosDigest).exec (.new minuteConfig) es =
        some (r, hist) ∧
      (reassembler fun _ => zerosDigest).step r e = some (r', o) ∧
      (r.assemblies.lookup ⟨7, otherHalf.messageId⟩).map Assembly.lastProgress = last ∧
      unexpiredKeys r 62000 = keys := by
  obtain ⟨⟨r, hist⟩, hrun, hrest⟩ := Option.bind_eq_some_iff.mp h
  obtain ⟨⟨r', o'⟩, hstep, heq⟩ := Option.map_eq_some_iff.mp hrest
  obtain ⟨rfl, hpair⟩ := Prod.mk.inj heq
  obtain ⟨hlast, hkeys⟩ := Prod.mk.inj hpair
  exact ⟨r, hist, r', hrun, hstep, hlast, hkeys⟩

/-- **Between two sweeps expired assemblies live on.**  A fragment completes an
assembly 61 seconds after its last progress, and in its place a fragment of another
sender is refused because of it. -/
theorem lifetimes_not_enforced_by_accept :
    (∃ r h r' payload, InOrderOfTime (halfMessage ++ [late 7]) ∧
      (reassembler fun _ => zerosDigest).exec (.new minuteConfig) halfMessage = some (r, h) ∧
      (reassembler fun _ => zerosDigest).step r (late 7) =
        some (r', [.accepted 7 otherHalf (.complete payload)]) ∧
      ¬ Timely r 62000 7 otherHalf (.complete payload)) ∧
    (∃ r h r', InOrderOfTime (halfMessage ++ [late 8]) ∧
      (reassembler fun _ => zerosDigest).exec (.new minuteConfig) halfMessage = some (r, h) ∧
      (reassembler fun _ => zerosDigest).step r (late 8) =
        some (r', [.accepted 8 otherHalf (.rejected .pendingLimitGlobal)]) ∧
      ¬ Timely r 62000 8 otherHalf (.rejected .pendingLimitGlobal)) := by
  constructor
  · have hanswer : answerAfter halfMessage (late 7) = some
        ([.accepted 7 otherHalf (.complete (List.replicate 211 0 ++ [7]))], some 1000, []) := by
      decide +kernel
    obtain ⟨r, h, r', hrun, hstep, hlast, -⟩ := exists_of_answerAfter hanswer
    obtain ⟨a, hlookup, hprogress⟩ := Option.map_eq_some_iff.mp hlast
    refine ⟨r, h, r', _, by decide, hrun, hstep, fun htimely => ?_⟩
    obtain ⟨hidle, -⟩ := htimely.advanced (.inr ⟨_, rfl⟩) a hlookup
    rw [(tracks_of_exec hrun).accounted.config_eq, hprogress] at hidle
    exact absurd hidle (by decide)
  · have hanswer : answerAfter halfMessage (late 8) = some
        ([.accepted 8 otherHalf (.rejected .pendingLimitGlobal)], some 1000, []) := by
      decide +kernel
    obtain ⟨r, h, r', hrun, hstep, -, hkeys⟩ := exists_of_answerAfter hanswer
    refine ⟨r, h, r', by decide, hrun, hstep, fun htimely => ?_⟩
    have hfull := htimely.fullGlobal rfl
    rw [(tracks_of_exec hrun).accounted.config_eq, hkeys] at hfull
    exact absurd hfull (by decide)

theorem lifetimes_end_at_sweeps_halfMessage :
    ∃ r h r' payload,
      (reassembler fun _ => zerosDigest).exec (.new minuteConfig) halfMessage = some (r, h) ∧
      (reassembler fun _ => zerosDigest).step r (late 7) =
        some (r', [.accepted 7 otherHalf (.complete payload)]) ∧
      Timely r 60000 7 otherHalf (.complete payload) := by
  have hanswer : answerAfter halfMessage (late 7) = some
      ([.accepted 7 otherHalf (.complete (List.replicate 211 0 ++ [7]))], some 1000, []) := by
    decide +kernel
  obtain ⟨r, h, r', hrun, hstep, -, -⟩ := exists_of_answerAfter hanswer
  exact ⟨r, h, r', _, hrun, hstep, lifetimes_end_at_sweeps _ minuteConfig (by decide) (by decide)
    halfMessage (by decide) 60000 (by simp [halfMessage]) 62000 7 _ r r' h otherHalf _ hrun hstep⟩

end Meshtastic
end Robins
