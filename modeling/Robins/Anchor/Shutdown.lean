import Robins.Anchor.Delivery

/-!
# Shutdown between a finalization and its confirmation

A batch that was finalized leaves the store only by its confirmation, and `retry_transient` looks
at the shutdown signal before the first attempt at it.  A shutdown requested while the submission
is in flight, for which it is given time to finish, is therefore noticed after the batch was
finalized and before it is confirmed, and the batch is submitted again by the next process.  The
same happens when the time of a confirmation in flight is over.

## The condition

`GivesUp` is the step at which this happens, as a condition on the state before the step and the
event: the confirmation of a batch that is still stored is about to be attempted under a triggered
signal, or is in flight and out of time.  It does not speak of what the step does.

`graceful_iff` says that nothing else goes wrong.  In a run in which the store does not fail and
no process is started before the one before it has returned, every batch finalized is removed
before `run` returns and is never submitted again, if and only if no step gives up a confirmation.

## The two directions

That the condition is enough is an invariant (`Settled`): unless a confirmation is in hand, all
that was finalized is removed.  One step keeps it, and with it nothing that was finalized is ready
to be submitted (`Settled.notAgain`).  That it is necessary is shorter: a confirmation given up
ends the run at once (`returned_of_givesUp`), with the batch finalized and still in the table.
`shutdownWhileSubmitting` is such a run, and the commonest: the shutdown comes during the
submission, which then succeeds.
-/

namespace Robins
namespace Anchor

open BatchStore

/-! ## Graceful runs -/

/-- `run` has returned. -/
def Control.isOver : Control → Bool
  | .returned | .failed _ _ => true
  | _ => false

/-- A process is started only when the one before it has returned. -/
def CrashFree (anchor : Anchor) (t₀ : Tables) (es : List Event) : Prop :=
  ∀ es₁ es₂ s₁ h₁, es = es₁ ++ .restart :: es₂ →
    (anchorMachine anchor).exec (.start t₀) es₁ = some (s₁, h₁) → s₁.control.isOver = true

/-- The confirmation of a batch that is still stored is given up. -/
def GivesUp (s : State) (e : Event) : Prop :=
  ∃ batch rest attempt, s.tables.readyBatches.get? batch.id ≠ none ∧
    ((e = .attempt ∧ s.shutdown.isTriggered = true ∧
        s.control = .check (.confirm batch rest) attempt) ∨
      (e = .drainExpired ∧ s.shutdown.received = true ∧
        s.control = .running (.confirm batch rest) attempt))

/-- No step of a run gives up a confirmation. -/
def NeverGivesUp (anchor : Anchor) (t₀ : Tables) (es : List Event) : Prop :=
  ∀ es₁ e es₂ s₁ h₁, es = es₁ ++ e :: es₂ →
    (anchorMachine anchor).exec (.start t₀) es₁ = some (s₁, h₁) → ¬ GivesUp s₁ e

/-- A batch is submitted only as long as it was not finalized. -/
def NotAgain (h : List Observation) : Observation → Prop
  | .submitted id _ => ∀ payload, .finalized id payload ∉ h
  | _ => True

/-- A batch that was finalized is gone when `run` returns, and not submitted again. -/
structure Graceful (anchor : Anchor) (t₀ : Tables) (es : List Event) (h : List Observation) :
    Prop where
  confirmed : ∀ es₁ es₂ s₁ h₁, es = es₁ ++ es₂ →
    (anchorMachine anchor).exec (.start t₀) es₁ = some (s₁, h₁) → s₁.control.isOver = true →
      ∀ id payload, .finalized id payload ∈ h₁ → s₁.tables.readyBatches.get? id = none
  notAgain : EventMachine.Justified NotAgain h

/-! ## What is finalized is removed -/

/-- Unless a confirmation is in hand, all batches that were finalized are removed; and
no confirmation waits between attempts. -/
structure Settled (h : List Observation) (control : Control) : Prop where
  removed : (∀ batch rest, control.task? ≠ some (.confirm batch rest)) →
    ∀ id payload, .finalized id payload ∈ h → ∃ b, b.id = id ∧ .removed b ∈ h
  prompt : ∀ batch rest attempt delay, control ≠ .backoff (.confirm batch rest) attempt delay

namespace Shelf

variable {c₀ c : Contents} {h : List Observation} {t : Tables} {k n : ℕ}

theorem mem_take_of_finalized (sh : Shelf c₀ h t c k n) {id : BatchId} {payload : Bytes}
    (hfinalized : .finalized id payload ∈ h) : ∃ b ∈ (stored c₀ h).take n, b.id = id := by
  have hmem : (id, payload) ∈ (finalizations h).destutter (· ≠ ·) :=
    mem_destutter.mpr (mem_finalizations.mpr hfinalized)
  rw [sh.finalized] at hmem
  obtain ⟨b, hb, heq⟩ := List.mem_map.mp hmem
  exact ⟨b, hb, congrArg Prod.fst heq⟩

theorem get?_eq_none_of_mem_take (sh : Shelf c₀ h t c k n) {b : StoredBatch}
    (hb : b ∈ (stored c₀ h).take k) : t.readyBatches.get? b.id = none := by
  rw [OrderedTable.get?_eq_none_iff]
  intro p hp
  rw [sh.holds.ready] at hp
  obtain ⟨b', hb', rfl⟩ := List.mem_map.mp hp
  exact sh.ne_of_mem_take hb b' hb'

/-- A batch behind the first position is in the table. -/
theorem get?_ne_none_of_drop (sh : Shelf c₀ h t c k n) {b : StoredBatch}
    (hb : b ∈ (stored c₀ h).drop k) : t.readyBatches.get? b.id ≠ none := by
  have hget : t.readyBatches.get? b.id = some (encodeBatch b.createdAt b.prepared) := by
    rw [OrderedTable.get?_eq_some_iff, sh.holds.ready, sh.ready]
    exact List.mem_map_of_mem hb
  rw [hget]
  exact Option.some_ne_none _

/-- With the positions equal, all that was finalized is removed. -/
theorem removed_of_finalized (sh : Shelf c₀ h t c n n) {id : BatchId} {payload : Bytes}
    (hfinalized : .finalized id payload ∈ h) : ∃ b, b.id = id ∧ .removed b ∈ h := by
  obtain ⟨b, hb, hid⟩ := sh.mem_take_of_finalized hfinalized
  exact ⟨b, hid, (sh.removed b).mpr hb⟩

end Shelf

section

variable {c₀ c : Contents} {h o : List Observation} {s s' : State} {k n : ℕ}

/-- A step that finalizes nothing and has no confirmation in hand that its successor
has not. -/
theorem Settled.next {control control' : Control} (hs : Settled h control)
    (htask : ∀ batch rest, control.task? = some (.confirm batch rest) →
      control'.task? = some (.confirm batch rest))
    (hfinalized : ∀ id payload, .finalized id payload ∉ o)
    (hprompt : ∀ batch rest attempt delay,
      control' ≠ .backoff (.confirm batch rest) attempt delay) :
    Settled (h ++ o) control' := by
  refine ⟨fun hnone id payload hmem => ?_, hprompt⟩
  have hmem' : .finalized id payload ∈ h :=
    (List.mem_append.mp hmem).resolve_right (hfinalized id payload)
  have hnone' : ∀ batch rest, control.task? ≠ some (.confirm batch rest) :=
    fun batch rest hconfirm => hnone batch rest (htask batch rest hconfirm)
  obtain ⟨b, hid, hremoved⟩ := hs.removed hnone' id payload hmem'
  exact ⟨b, hid, List.mem_append_left _ hremoved⟩

/-- With a confirmation in hand, of a batch that is gone, all is removed too. -/
theorem Tracked.removed_of_gone (t : Tracked c₀ h s c k n) {batch : StoredBatch}
    {rest : List StoredBatch} (htask : s.control.task? = some (.confirm batch rest))
    (hgone : s.tables.readyBatches.get? batch.id = none) {id : BatchId} {payload : Bytes}
    (hfinalized : .finalized id payload ∈ h) : ∃ b, b.id = id ∧ .removed b ∈ h := by
  obtain ⟨m, tail, rfl, hdrop⟩ := t.fits.task _ htask
  have hkm : k = m + 1 := by
    have hle := t.shelf.le
    have hle' := t.shelf.le_succ
    by_contra hne
    have hmem : batch ∈ (stored c₀ h).drop k :=
      Shelf.mem_drop.mpr ⟨m, by omega, getElem?_of_drop hdrop⟩
    exact t.shelf.get?_ne_none_of_drop hmem hgone
  have hshelf := t.shelf
  rw [hkm] at hshelf
  exact hshelf.removed_of_finalized hfinalized

/-- The run returns without a confirmation of a batch that is still stored. -/
theorem Settled.returned (t : Tracked c₀ h s c k n) (hs : Settled h s.control)
    (hgone : ∀ batch rest, s.control.task? = some (.confirm batch rest) →
      s.tables.readyBatches.get? batch.id = none) : Settled (h ++ []) .returned := by
  rw [List.append_nil]
  refine ⟨fun _ id payload hfinalized => ?_, by simp⟩
  by_cases htask : ∃ batch rest, s.control.task? = some (.confirm batch rest)
  · obtain ⟨batch, rest, htask⟩ := htask
    exact t.removed_of_gone htask (hgone batch rest htask) hfinalized
  · have hnone : ∀ batch rest, s.control.task? ≠ some (.confirm batch rest) :=
      fun batch rest h => htask ⟨batch, rest, h⟩
    exact hs.removed hnone id payload hfinalized

theorem task?_of_isOver {control : Control} (hover : control.isOver = true) :
    control.task? = none := by
  cases control <;> simp_all [Control.isOver, Control.task?]

/-- **One step keeps the batches settled**, unless it gives up a confirmation.  What was
finalized and is still stored is the batch whose confirmation is in hand, and that is tried again
until it takes effect or is given up. -/
theorem Settled.step {anchor : Anchor} {e : Event} (t : Tracked c₀ h s c k n)
    (hs : Settled h s.control) (hmove : Move anchor s e s' o)
    (hcrash : e = .restart → s.control.isOver = true) (hstore : ∀ error, e ≠ .storeFailed error)
    (hgives : ¬ GivesUp s e) : Settled (h ++ o) s'.control := by
  cases hmove with
  | signal => exact hs.next (fun _ _ => id) (by simp) hs.prompt
  | commit =>
    refine hs.next (fun _ _ => id) (fun id payload hmem => ?_) hs.prompt
    obtain ⟨_, heq⟩ := created_of_mem_committed hmem
    exact absurd heq (by simp)
  | transaction =>
    refine hs.next (fun _ _ => id) (fun id payload hmem => ?_) hs.prompt
    obtain ⟨_, heq⟩ := removed_of_mem_removal hmem
    exact absurd heq (by simp)
  | restart =>
    refine hs.next (fun _ _ h => ?_) (by simp) (by simp [State.start])
    rw [task?_of_isOver (hcrash rfl)] at h
    exact absurd h (by simp)
  | retry htask htask' hdelay =>
    refine hs.next (fun _ _ h => ?_) (by simp) fun batch rest attempt delay heq => ?_
    · rw [htask', ← htask, h]
    · obtain ⟨error, he⟩ := hdelay batch rest attempt delay heq
      exact hstore error he
  | refused hcontrol htriggered =>
    refine hs.returned t fun batch rest htask => ?_
    by_contra hstored
    rw [hcontrol] at htask
    obtain rfl := Option.some.inj htask
    exact hgives ⟨batch, rest, _, hstored, .inl ⟨rfl, htriggered, hcontrol⟩⟩
  | drained hcontrol hreceived =>
    refine hs.returned t fun batch rest htask => ?_
    by_contra hstored
    rw [hcontrol] at htask
    obtain rfl := Option.some.inj htask
    exact hgives ⟨batch, rest, _, hstored, .inr ⟨rfl, hreceived, hcontrol⟩⟩
  | stop hcontrol =>
    refine hs.returned t fun batch rest htask => ?_
    rcases hcontrol with hidle | ⟨task, attempt, delay, hbackoff⟩
    · exact absurd htask (by simp [hidle, Control.task?])
    · rw [hbackoff] at htask
      obtain rfl := Option.some.inj htask
      exact absurd hbackoff (hs.prompt batch rest attempt delay)
  | sleep hcontrol | wake hcontrol =>
    exact hs.next (fun _ _ h => absurd h (by simp [hcontrol, Control.task?])) (by simp) (by simp)
  | page hcontrol =>
    exact hs.next (fun _ _ h => absurd h (by simp [hcontrol, Control.task?])) (by simp)
      (by simp [anchorPage])
  | submit hcontrol =>
    exact hs.next (fun _ _ h => absurd h (by simp [hcontrol, Control.task?])) (by simp) (by simp)
  | fail htask =>
    exact hs.next (fun _ _ h => absurd h (by simp [htask])) (by simp) (by simp)
  | finalize | issue => exact ⟨fun hnone => absurd rfl (hnone _ _), by simp⟩
  | confirm hcontrol =>
    have t' := t.confirm (by rw [hcontrol]; rfl)
    refine ⟨fun _ id payload hfinalized => t'.shelf.removed_of_finalized hfinalized, ?_⟩
    intro batch rest attempt delay heq
    unfold anchorPage at heq
    split at heq <;> exact absurd heq (by simp)

/-- What is submitted was not finalized. -/
theorem Settled.notAgain {anchor : Anchor} {e : Event} (t : Tracked c₀ h s c k n)
    (hs : Settled h s.control) (hmove : Move anchor s e s' o) (id : BatchId) (payload : Bytes)
    (hsubmitted : .submitted id payload ∈ o) :
    o = [.submitted id payload] ∧ ∀ payload', .finalized id payload' ∉ h := by
  cases hmove with
  | submit hcontrol =>
    obtain ⟨rfl, rfl⟩ := Observation.submitted.inj (List.mem_singleton.mp hsubmitted)
    refine ⟨rfl, fun payload' hfinalized => ?_⟩
    obtain ⟨tail, hdrop⟩ := t.fits.task _ (by rw [hcontrol]; rfl)
    obtain ⟨b, hid, hremoved⟩ := hs.removed (by simp [hcontrol, Control.task?]) _ _ hfinalized
    refine t.shelf.ne_of_mem_take ((t.shelf.removed b).mp hremoved) _ ?_ hid.symm
    rw [t.shelf.ready, hdrop]
    exact List.mem_cons_self
  | commit =>
    obtain ⟨_, heq⟩ := created_of_mem_committed hsubmitted
    exact absurd heq (by simp)
  | transaction | confirm =>
    obtain ⟨_, heq⟩ := removed_of_mem_removal hsubmitted
    exact absurd heq (by simp)
  | _ => exact absurd hsubmitted (by simp)

end

/-! ## Runs -/

section

variable {anchor : Anchor} {t₀ : Tables} {c₀ : Contents}

theorem CrashFree.of_append {es fs : List Event} (h : CrashFree anchor t₀ (es ++ fs)) :
    CrashFree anchor t₀ es := by
  intro es₁ es₂ s₁ h₁ hes hrun
  exact h es₁ (es₂ ++ fs) s₁ h₁ (by rw [hes, List.append_assoc, List.cons_append]) hrun

theorem NeverGivesUp.of_append {es fs : List Event} (h : NeverGivesUp anchor t₀ (es ++ fs)) :
    NeverGivesUp anchor t₀ es := by
  intro es₁ e es₂ s₁ h₁ hes hrun
  exact h es₁ e (es₂ ++ fs) s₁ h₁ (by rw [hes, List.append_assoc, List.cons_append]) hrun

/-- Along a run that never gives up a confirmation, the batches stay settled and none
is submitted again. -/
theorem settled_of_exec (hholds : t₀.Holds c₀) {es : List Event} {s : State}
    {h : List Observation} (hrun : (anchorMachine anchor).exec (.start t₀) es = some (s, h))
    (hids : c₀.nextBatchId + (es.map newBatches).sum ≤ 2 ^ 64) (hcrash : CrashFree anchor t₀ es)
    (hstore : ∀ error, .storeFailed error ∉ es) (hnever : NeverGivesUp anchor t₀ es) :
    Settled h s.control ∧ EventMachine.Justified NotAgain h := by
  revert hids hcrash hstore hnever
  refine EventMachine.exec_induction (P := fun es h s =>
    c₀.nextBatchId + (es.map newBatches).sum ≤ 2 ^ 64 → CrashFree anchor t₀ es →
      (∀ error, .storeFailed error ∉ es) → NeverGivesUp anchor t₀ es →
        Settled h s.control ∧ EventMachine.Justified NotAgain h) ?_ ?_ hrun
  · intro _ _ _ _
    exact ⟨⟨by simp, by simp [State.start]⟩, EventMachine.justified_nil _⟩
  · intro es h s e s' o hrun ih hstep hids hcrash hstore hnever
    have hids' : c₀.nextBatchId + (es.map newBatches).sum ≤ 2 ^ 64 := by
      rw [List.map_append, List.sum_append] at hids
      omega
    obtain ⟨hs, hjust⟩ := ih hids' hcrash.of_append
      (fun error hmem => hstore error (List.mem_append_left _ hmem)) hnever.of_append
    obtain ⟨c, k, n, t, -⟩ := tracked_of_exec hholds hrun hids'
    have hmove := move_of_anchorStep hstep
    constructor
    · refine hs.step t hmove ?_ ?_ (hnever es e [] s h rfl hrun)
      · rintro rfl
        exact hcrash es [] s h rfl hrun
      · rintro error rfl
        exact hstore error (List.mem_append_right _ List.mem_cons_self)
    · refine EventMachine.justified_append.mpr ⟨hjust, fun o₁ a o₂ ho => ?_⟩
      cases a with
      | submitted id payload =>
        obtain ⟨hsingle, hnot⟩ := hs.notAgain t hmove id payload
          (by rw [ho]; simp)
        rw [hsingle] at ho
        cases o₁ with
        | nil => simpa [NotAgain] using hnot
        | cons a o₁ => exact absurd (List.cons.inj ho).2.symm (by simp)
      | _ => trivial

/-- A confirmation given up ends the run. -/
theorem returned_of_givesUp {s s' : State} {e : Event} {o : List Observation}
    (hgives : GivesUp s e) (hstep : anchorStep anchor s e = some (s', o)) :
    s' = { s with control := .returned } ∧ o = [] := by
  obtain ⟨batch, rest, attempt, -,
    ⟨rfl, htriggered, hcontrol⟩ | ⟨rfl, hreceived, hcontrol⟩⟩ := hgives
  · simp only [anchorStep, hcontrol, Anchor.attempt, htriggered, if_true] at hstep
    obtain ⟨rfl, rfl⟩ := Prod.mk.inj (Option.some.inj hstep)
    exact ⟨rfl, rfl⟩
  · simp only [anchorStep, hcontrol, hreceived, if_true] at hstep
    obtain ⟨rfl, rfl⟩ := Prod.mk.inj (Option.some.inj hstep)
    exact ⟨rfl, rfl⟩

/-- **Graceful shutdown, exactly.**  In a crash-free run in which the store does not
fail, every batch that was finalized is removed before `run` returns and never
submitted again, if and only if no step of the run gives up a confirmation: the
shutdown has not been requested when the confirmation of a batch still stored is
about to be attempted, and the time of a confirmation in flight is not over before
it has taken effect. -/
theorem graceful_iff (anchor : Anchor) (t₀ : Tables) (c₀ : Contents) (hholds : t₀.Holds c₀)
    (es : List Event) (s : State) (h : List Observation)
    (hrun : (anchorMachine anchor).exec (.start t₀) es = some (s, h))
    (hids : c₀.nextBatchId + (es.map newBatches).sum ≤ 2 ^ 64) (hcrash : CrashFree anchor t₀ es)
    (hstore : ∀ error, .storeFailed error ∉ es) :
    Graceful anchor t₀ es h ↔ NeverGivesUp anchor t₀ es := by
  constructor
  · intro hgraceful es₁ e es₂ s₁ h₁ hes hrun₁ hgives
    have hids₁ : c₀.nextBatchId + (es₁.map newBatches).sum ≤ 2 ^ 64 := by
      rw [hes, List.map_append, List.sum_append] at hids
      omega
    obtain ⟨c, k, n, t, -⟩ := tracked_of_exec hholds hrun₁ hids₁
    rw [hes] at hrun
    obtain ⟨s₁', h₁', k', hfirst, hrest, -⟩ := EventMachine.exec_append_eq_some_iff.mp hrun
    rw [hrun₁] at hfirst
    obtain ⟨rfl, rfl⟩ := Prod.mk.inj (Option.some.inj hfirst)
    obtain ⟨s₂, o, -, hstep, -, -⟩ := EventMachine.exec_cons_eq_some_iff.mp hrest
    obtain ⟨rfl, rfl⟩ := returned_of_givesUp hgives hstep
    obtain ⟨batch, rest, attempt, hstored, hat⟩ := hgives
    have htask : s₁.control.task? = some (.confirm batch rest) := by
      rcases hat with ⟨-, -, hcontrol⟩ | ⟨-, -, hcontrol⟩ <;> rw [hcontrol] <;> rfl
    obtain ⟨m, tail, rfl, hdrop⟩ := t.fits.task _ htask
    have hfinalized : .finalized batch.id batch.payload ∈ h₁ := t.shelf.finalized_of_mem_take
      (Shelf.mem_take.mpr ⟨m, Nat.lt_succ_self m, getElem?_of_drop hdrop⟩)
    refine hstored (hgraceful.confirmed (es₁ ++ [e]) es₂ _ (h₁ ++ []) ?_
      (EventMachine.exec_snoc_eq_some_iff.mpr ⟨s₁, h₁, [], hrun₁, hstep, rfl⟩) rfl batch.id
      batch.payload (List.mem_append_left _ hfinalized))
    rw [hes, List.append_assoc, List.singleton_append]
  · intro hnever
    refine ⟨fun es₁ es₂ s₁ h₁ hes hrun₁ hover id payload hfinalized => ?_,
      (settled_of_exec hholds hrun hids hcrash hstore hnever).2⟩
    subst hes
    have hids₁ : c₀.nextBatchId + (es₁.map newBatches).sum ≤ 2 ^ 64 := by
      rw [List.map_append, List.sum_append] at hids
      omega
    obtain ⟨hs, -⟩ := settled_of_exec hholds hrun₁ hids₁ hcrash.of_append
      (fun error hmem => hstore error (List.mem_append_left _ hmem)) hnever.of_append
    obtain ⟨c, k, n, t, -⟩ := tracked_of_exec hholds hrun₁ hids₁
    obtain ⟨b, rfl, hremoved⟩ := hs.removed (by simp [task?_of_isOver hover]) id payload hfinalized
    exact t.shelf.get?_eq_none_of_mem_take ((t.shelf.removed b).mp hremoved)

end

/-- The shutdown is requested while a confirmation is in flight. -/
def shutdownWhileConfirming : List Event :=
  [.commit ⟨5⟩ [] [⟨1, [7, 8]⟩], .attempt, .loaded, .attempt, .target (.ok ⟨"0x1", "0x2"⟩),
    .attempt, .trigger, .confirmed, .attempt]

theorem graceful_iff_shutdownWhileConfirming :
    ∃ s h, (anchorMachine smallAnchor).exec (.start .create) shutdownWhileConfirming = some (s, h) ∧
      s.control = .returned ∧ finalizations h = [(0, [7, 8])] ∧
      (Graceful smallAnchor .create shutdownWhileConfirming h ↔
        NeverGivesUp smallAnchor .create shutdownWhileConfirming) := by
  have hshown : ((anchorMachine smallAnchor).exec (.start .create) shutdownWhileConfirming).map
      (fun p => (p.1.control, finalizations p.2)) = some (.returned, [(0, [7, 8])]) := by
    decide +kernel
  obtain ⟨⟨s, h⟩, hrun, hh⟩ := Option.map_eq_some_iff.mp hshown
  obtain ⟨hcontrol, hfinalized⟩ := Prod.mk.inj hh
  refine ⟨s, h, hrun, hcontrol, hfinalized, graceful_iff smallAnchor .create .fresh holds_create
    shutdownWhileConfirming s h hrun (by decide) (fun es₁ es₂ _ _ hes _ => ?_) ?_⟩
  · have hmem : Event.restart ∈ shutdownWhileConfirming := by
      rw [hes]
      simp
    simp [shutdownWhileConfirming] at hmem
  · simp [shutdownWhileConfirming]

/-- The shutdown is requested while a submission is in flight, which then succeeds. -/
def shutdownWhileSubmitting : List Event :=
  [.commit ⟨5⟩ [] [⟨1, [7, 8]⟩], .attempt, .loaded, .attempt, .trigger,
    .target (.ok ⟨"0x1", "0x2"⟩), .attempt]

/-- **Not graceful.**  `run` returns with a batch finalized and still stored. -/
theorem not_graceful_shutdownWhileSubmitting :
    ∃ s h, (anchorMachine smallAnchor).exec (.start .create) shutdownWhileSubmitting = some (s, h) ∧
      CrashFree smallAnchor .create shutdownWhileSubmitting ∧
      (∀ error, .storeFailed error ∉ shutdownWhileSubmitting) ∧ s.control = .returned ∧
      .finalized 0 [7, 8] ∈ h ∧ (s.tables.readyBatches.get? 0).isSome = true ∧
      ¬ Graceful smallAnchor .create shutdownWhileSubmitting h := by
  have hshown : ((anchorMachine smallAnchor).exec (.start .create) shutdownWhileSubmitting).map
      (fun p => (p.1.control, finalizations p.2, (p.1.tables.readyBatches.get? 0).isSome)) =
      some (.returned, [(0, [7, 8])], true) := by
    decide +kernel
  obtain ⟨⟨s, h⟩, hrun, hh⟩ := Option.map_eq_some_iff.mp hshown
  simp only [Prod.mk.injEq] at hh
  obtain ⟨hcontrol, hfinalizations, hstored⟩ := hh
  have hfinalized : .finalized 0 [7, 8] ∈ h := by
    rw [← mem_finalizations, hfinalizations]
    exact List.mem_cons_self
  refine ⟨s, h, hrun, fun es₁ es₂ _ _ hes _ => ?_, by simp [shutdownWhileSubmitting], hcontrol,
    hfinalized, hstored, fun hgraceful => ?_⟩
  · have hmem : Event.restart ∈ shutdownWhileSubmitting := by
      rw [hes]
      simp
    simp [shutdownWhileSubmitting] at hmem
  · have hnone := hgraceful.confirmed shutdownWhileSubmitting [] s h (List.append_nil _).symm hrun
      (by rw [hcontrol]; rfl) 0 [7, 8] hfinalized
    rw [hnone] at hstored
    exact absurd hstored (by simp)

end Anchor
end Robins
